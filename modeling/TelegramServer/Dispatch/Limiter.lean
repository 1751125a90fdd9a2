import TelegramServer.Go.Basic
import TelegramServer.Lib.TokenBucket
import Mathlib.Data.Int.ConditionallyCompleteOrder
import Mathlib.Data.Rat.Floor
import Mathlib.Tactic.NormNum

/-!
The outgoing rate limiter (`internal/dispatch/telegram/dispatch_limiter.go`):
one global token bucket, and one bucket per chat made at its first use. Token
arithmetic is exact over the rationals.
-/

namespace TelegramServer.Dispatch

open Go Lib

/-- A clock reading in seconds. -/
def seconds (t : Time) : ℚ := (t : ℚ) / second

theorem seconds_strictMono : StrictMono seconds := by
  intro a b hab
  have hcast : (a : ℚ) < b := by exact_mod_cast hab
  exact div_lt_div_of_pos_right hcast (by norm_num [second])

/-- `ratelimit.Decision`, the wait in nanoseconds. -/
structure Decision where
  allowed : Bool
  retryAfter : ℤ := 0

/-- One try at a bucket, as `takeGlobal` and `takePerChat` both make it:
refill, then take a token or say how long the next one is away. -/
def takeToken (rate burst : ℚ) (now : Time) (b : Bucket ℚ Time) : Decision × Bucket ℚ Time :=
  let b := b.fill seconds rate burst now
  if 1 ≤ b.tokens then ({ allowed := true }, b.spend)
  else ({ allowed := false, retryAfter := ((1 - b.tokens) / rate * second).floor }, b)

structure DispatchLimiter where
  global : Bucket ℚ Time
  gRate : ℚ
  gBurst : ℚ
  per : String → Option (Bucket ℚ Time)
  pRate : ℚ
  pBurst : ℚ

def defaultGlobalRatePerSec : ℚ := 25
def defaultPerChatRatePerSec : ℚ := 1
def defaultBurstGlobal : ℚ := 30
def defaultBurstPerChat : ℚ := 2

def newDispatchLimiter (now : Time) : DispatchLimiter where
  global := ⟨defaultBurstGlobal, now⟩
  gRate := defaultGlobalRatePerSec
  gBurst := defaultBurstGlobal
  per := fun _ => none
  pRate := defaultPerChatRatePerSec
  pBurst := defaultBurstPerChat

def DispatchLimiter.takeGlobal (l : DispatchLimiter) (now : Time) : Decision × DispatchLimiter :=
  let (d, b) := takeToken l.gRate l.gBurst now l.global
  (d, { l with global := b })

def DispatchLimiter.takePerChat (l : DispatchLimiter) (key : String) (now : Time) :
    Decision × DispatchLimiter :=
  let (d, b) := takeToken l.pRate l.pBurst now ((l.per key).getD ⟨l.pBurst, now⟩)
  (d, { l with per := Function.update l.per key (some b) })

/-- The limiter key of a chat, `fmt.Sprintf("chat:%d", h.ChatID)`. -/
def chatKey (chatID : ℤ) : String := "chat:" ++ toString chatID

/-- A try at a bucket keeps its account. A grant is outstanding if the reading
it was made at is the time it is made. -/
theorem ledger_takeToken {rate burst : ℚ} (hrate : 0 ≤ rate) {clock now : Time}
    {b : Bucket ℚ Time} {pend : ℕ} {log : List Time}
    (h : Ledger seconds rate burst clock b pend log) (hnow : now ≤ clock) :
    Ledger seconds rate burst clock (takeToken rate burst now b).2
      (pend + if (takeToken rate burst now b).1.allowed ∧ now = clock then 1 else 0) log := by
  have hfill := h.fill seconds_strictMono hrate hnow
  unfold takeToken
  dsimp only
  split
  · rename_i htoken
    refine hfill.admit htoken ?_ ?_
    · split <;> omega
    · intro hpos
      rw [refill_fill seconds_strictMono]
      by_cases heq : now = clock
      · rw [heq, max_eq_right h.refill_le]
      · have hpend : 0 < pend := by simpa [heq] using hpos
        rw [h.current hpend, max_eq_left hnow]
  · simpa using hfill

/-! ### What one call costs -/

/-- `DispatchLimiter.Allow`: a token of the global bucket, then one of the
chat's bucket, both at one reading of the clock. -/
def DispatchLimiter.allow (l : DispatchLimiter) (key : String) (now : Time) :
    Decision × DispatchLimiter :=
  let (d, l) := l.takeGlobal now
  if d.allowed then l.takePerChat key now else (d, l)

/-- The tokens of the global bucket at the time `now`, refill included. -/
def DispatchLimiter.globalTokens (l : DispatchLimiter) (now : Time) : ℚ :=
  (l.global.fill seconds l.gRate l.gBurst now).tokens

/-- The tokens of a chat's bucket at the time `now`, refill included. A chat
without a bucket gets a full one at its first use. -/
def DispatchLimiter.chatTokens (l : DispatchLimiter) (key : String) (now : Time) : ℚ :=
  (((l.per key).getD ⟨l.pBurst, now⟩).fill seconds l.pRate l.pBurst now).tokens

section Cost

variable {rate burst : ℚ} {now : Time} {b : Bucket ℚ Time} {l : DispatchLimiter} {key : String}

theorem takeToken_of_le (h : 1 ≤ (b.fill seconds rate burst now).tokens) :
    takeToken rate burst now b =
      ({ allowed := true }, (b.fill seconds rate burst now).spend) := by
  simp only [takeToken, if_pos h]

theorem takeToken_of_lt (h : (b.fill seconds rate burst now).tokens < 1) :
    takeToken rate burst now b =
      (⟨false, ⌊(1 - (b.fill seconds rate burst now).tokens) / rate * second⌋⟩,
        b.fill seconds rate burst now) := by
  simp only [takeToken, if_neg (not_le.mpr h)]
  rfl

/-- A bucket that was just filled, and perhaps spent from, does not fill again
at the same reading. -/
theorem fill_of_refill_eq {b' : Bucket ℚ Time}
    (h : b'.refill = (b.fill seconds rate burst now).refill) :
    b'.fill seconds rate burst now = b' := by
  apply fill_of_le seconds_strictMono
  rw [h, refill_fill seconds_strictMono]
  exact le_max_right b.refill now

/-- The tokens after one try, at the time of the try. -/
theorem tokens_fill_takeToken :
    ((takeToken rate burst now b).2.fill seconds rate burst now).tokens =
      (b.fill seconds rate burst now).tokens -
        if 1 ≤ (b.fill seconds rate burst now).tokens then 1 else 0 := by
  rcases le_or_gt 1 (b.fill seconds rate burst now).tokens with htoken | hempty
  · have hrefill : (b.fill seconds rate burst now).spend.refill =
        (b.fill seconds rate burst now).refill := rfl
    rw [takeToken_of_le htoken, if_pos htoken]
    dsimp only
    rw [fill_of_refill_eq hrefill]
    rfl
  · rw [takeToken_of_lt hempty, if_neg (not_le.mpr hempty), fill_of_refill_eq rfl, sub_zero]

theorem allowed_takeToken :
    (takeToken rate burst now b).1.allowed =
      decide (1 ≤ (b.fill seconds rate burst now).tokens) := by
  rcases le_or_gt 1 (b.fill seconds rate burst now).tokens with htoken | hempty
  · rw [takeToken_of_le htoken, decide_eq_true htoken]
  · rw [takeToken_of_lt hempty, decide_eq_false (not_le.mpr hempty)]

theorem globalTokens_takeGlobal :
    (l.takeGlobal now).2.globalTokens now =
      l.globalTokens now - if 1 ≤ l.globalTokens now then 1 else 0 :=
  tokens_fill_takeToken

@[simp] theorem chatTokens_takeGlobal (k : String) :
    (l.takeGlobal now).2.chatTokens k now = l.chatTokens k now := rfl

@[simp] theorem globalTokens_takePerChat :
    (l.takePerChat key now).2.globalTokens now = l.globalTokens now := rfl

theorem chatTokens_takePerChat_self :
    (l.takePerChat key now).2.chatTokens key now =
      l.chatTokens key now - if 1 ≤ l.chatTokens key now then 1 else 0 := by
  have hown : (l.takePerChat key now).2.per key =
      some (takeToken l.pRate l.pBurst now ((l.per key).getD ⟨l.pBurst, now⟩)).2 :=
    Function.update_self key _ l.per
  unfold DispatchLimiter.chatTokens
  rw [hown]
  exact tokens_fill_takeToken

theorem chatTokens_takePerChat_of_ne {k : String} (hk : k ≠ key) :
    (l.takePerChat key now).2.chatTokens k now = l.chatTokens k now := by
  have hother : (l.takePerChat key now).2.per k = l.per k := Function.update_of_ne hk _ l.per
  unfold DispatchLimiter.chatTokens
  rw [hother]
  rfl

theorem allowed_takeGlobal :
    (l.takeGlobal now).1.allowed = decide (1 ≤ l.globalTokens now) :=
  allowed_takeToken

theorem allowed_takePerChat :
    (l.takePerChat key now).1.allowed = decide (1 ≤ l.chatTokens key now) :=
  allowed_takeToken

theorem allow_of_global_lt (h : l.globalTokens now < 1) :
    l.allow key now = l.takeGlobal now := by
  have hrefused : (l.takeGlobal now).1.allowed = false := by
    rw [allowed_takeGlobal, decide_eq_false (not_le.mpr h)]
  unfold DispatchLimiter.allow
  simp [hrefused]

theorem allow_of_one_le_global (h : 1 ≤ l.globalTokens now) :
    l.allow key now = (l.takeGlobal now).2.takePerChat key now := by
  have hpaid : (l.takeGlobal now).1.allowed = true := by
    rw [allowed_takeGlobal, decide_eq_true h]
  unfold DispatchLimiter.allow
  simp [hpaid]

end Cost

/-- The price of a call: a refused call leaves every bucket with the tokens it
would have without the call, and an admitted one takes one token from the global
bucket, one from the chat's, and none from another chat's. -/
structure DispatchLimiter.FairPrice (l : DispatchLimiter) (key : String) (now : Time) : Prop where
  refused_global : (l.allow key now).1.allowed = false →
    (l.allow key now).2.globalTokens now = l.globalTokens now
  refused_chat : (l.allow key now).1.allowed = false →
    ∀ k, (l.allow key now).2.chatTokens k now = l.chatTokens k now
  admitted_global : (l.allow key now).1.allowed = true →
    (l.allow key now).2.globalTokens now = l.globalTokens now - 1
  admitted_chat : (l.allow key now).1.allowed = true →
    (l.allow key now).2.chatTokens key now = l.chatTokens key now - 1
  admitted_others : (l.allow key now).1.allowed = true →
    ∀ k, k ≠ key → (l.allow key now).2.chatTokens k now = l.chatTokens k now

/-- A call that the global bucket pays for and the chat's bucket refuses costs
a global token. -/
theorem globalTokens_allow_of_refused {l : DispatchLimiter} {key : String} {now : Time}
    (hglobal : 1 ≤ l.globalTokens now) (hchat : l.chatTokens key now < 1) :
    (l.allow key now).1.allowed = false ∧
      (l.allow key now).2.globalTokens now = l.globalTokens now - 1 := by
  rw [allow_of_one_le_global hglobal]
  constructor
  · rw [allowed_takePerChat, chatTokens_takeGlobal, decide_eq_false (not_le.mpr hchat)]
  · rw [globalTokens_takePerChat, globalTokens_takeGlobal, if_pos hglobal]

/-- The price is fair exactly where the chat's bucket does not refuse what the
global bucket has paid for. -/
theorem fairPrice_iff (l : DispatchLimiter) (key : String) (now : Time) :
    l.FairPrice key now ↔ ¬ (1 ≤ l.globalTokens now ∧ l.chatTokens key now < 1) := by
  constructor
  · rintro hfair ⟨hglobal, hchat⟩
    obtain ⟨hrefused, hcost⟩ := globalTokens_allow_of_refused hglobal hchat
    have hkept := hfair.refused_global hrefused
    linarith
  · intro hcond
    rcases lt_or_ge (l.globalTokens now) 1 with hglobal | hglobal
    · -- the global bucket refuses, and the chat's bucket is not reached
      have hrefused : (l.takeGlobal now).1.allowed = false := by
        rw [allowed_takeGlobal, decide_eq_false (not_le.mpr hglobal)]
      have hsame : (l.takeGlobal now).2.globalTokens now = l.globalTokens now := by
        rw [globalTokens_takeGlobal, if_neg (not_le.mpr hglobal), sub_zero]
      constructor <;> rw [allow_of_global_lt hglobal] <;> intro hallowed
      · exact hsame
      · exact fun k => chatTokens_takeGlobal k
      all_goals exact absurd (hrefused.symm.trans hallowed) Bool.false_ne_true
    · have hchat : 1 ≤ l.chatTokens key now := not_lt.mp fun hlt => hcond ⟨hglobal, hlt⟩
      have hadmitted : ((l.takeGlobal now).2.takePerChat key now).1.allowed = true := by
        rw [allowed_takePerChat, chatTokens_takeGlobal, decide_eq_true hchat]
      constructor <;> rw [allow_of_one_le_global hglobal] <;> intro hallowed
      · exact absurd (hallowed.symm.trans hadmitted) Bool.false_ne_true
      · exact absurd (hallowed.symm.trans hadmitted) Bool.false_ne_true
      · rw [globalTokens_takePerChat, globalTokens_takeGlobal, if_pos hglobal]
      · rw [chatTokens_takePerChat_self, chatTokens_takeGlobal, if_pos hchat]
      · intro k hk
        rw [chatTokens_takePerChat_of_ne hk, chatTokens_takeGlobal]

/-- A fresh limiter after the first chat has used its burst. -/
def burstUsed : DispatchLimiter :=
  (((newDispatchLimiter 0).allow "chat:1" 0).2.allow "chat:1" 0).2

/-- The third call for that chat is refused, and the global bucket goes from 28
tokens to 27: the next chat can send less. -/
theorem burstUsed_not_fairPrice :
    ((burstUsed.allow "chat:1" 0).1.allowed = false ∧ burstUsed.globalTokens 0 = 28 ∧
      (burstUsed.allow "chat:1" 0).2.globalTokens 0 = 27) ∧
      ¬ burstUsed.FairPrice "chat:1" 0 := by
  have hcall : (burstUsed.allow "chat:1" 0).1.allowed = false ∧ burstUsed.globalTokens 0 = 28 ∧
      (burstUsed.allow "chat:1" 0).2.globalTokens 0 = 27 := by
    decide +kernel
  refine ⟨hcall, fun hfair => ?_⟩
  have hkept := hfair.refused_global hcall.1
  rw [hcall.2.1, hcall.2.2] at hkept
  norm_num at hkept

end TelegramServer.Dispatch
