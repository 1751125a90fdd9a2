import TelegramServer.Dispatch.Limiter
import TelegramServer.Lib.Runs

/-!
Concurrent calls of `Dispatcher.Send` (`internal/dispatch/telegram/dispatcher.go`)
that share one `DispatchLimiter`. A call reads the clock, tries the global bucket
and then the bucket of its chat, each under a mutex of its own, and then calls
`SendMessage`; other calls may run between any two of these. A call that is
refused sleeps for the wait it was told and then goes on to `SendMessage` too,
without asking the limiter again.

The limiter itself is sound: as long as only admitted calls send, and send at
the reading they were admitted at, the messages of every window stay within the
burst and the refill of that window. The sleeping calls break this, since several
of them are told to wait for the same token.
-/

namespace TelegramServer.Dispatch

open Go Lib

/-- Where a call of `Send` is. `read`, `paidGlobal` and `granted` carry the clock
reading that `Allow` made. -/
inductive SendPhase
  | read (now : Time)
  | paidGlobal (now : Time)
  | granted (now : Time)
  | waiting (wake : Time)
  | woken
  | returned
  deriving DecidableEq

/-- The clock reading the phase carries. -/
def SendPhase.reading : SendPhase → Option Time
  | .read now | .paidGlobal now | .granted now => some now
  | .waiting _ | .woken | .returned => none

structure SendCall where
  chatID : ℤ
  phase : SendPhase

structure DispatcherState where
  clock : Time
  limiter : DispatchLimiter
  calls : List SendCall
  /-- The calls of `SendMessage` so far, with their times. -/
  sent : List (ℤ × Time)

inductive SendAction
  | tick (now : Time)
  | call (chatID : ℤ)
  | takeGlobal (i : ℕ)
  | takePerChat (i : ℕ)
  | wake (i : ℕ)
  | cancel (i : ℕ)
  | sendMessage (i : ℕ)

/-- A refused call: it sleeps, or it returns `ErrRateLimited` when there is
nothing to wait for. -/
def refusedPhase (clock : Time) (d : Decision) : SendPhase :=
  if 0 < d.retryAfter then .waiting (clock + d.retryAfter) else .returned

def DispatcherState.setPhase (s : DispatcherState) (i : ℕ) (chatID : ℤ) (ph : SendPhase) :
    DispatcherState :=
  { s with calls := s.calls.set i ⟨chatID, ph⟩ }

def sendStep (s : DispatcherState) : SendAction → Option DispatcherState
  | .tick now => if s.clock ≤ now then some { s with clock := now } else none
  | .call chatID => some { s with calls := s.calls ++ [⟨chatID, .read s.clock⟩] }
  | .takeGlobal i =>
      match s.calls[i]? with
      | some ⟨chatID, .read now⟩ =>
          let (d, l) := s.limiter.takeGlobal now
          some { s.setPhase i chatID
            (if d.allowed then .paidGlobal now else refusedPhase s.clock d) with limiter := l }
      | _ => none
  | .takePerChat i =>
      match s.calls[i]? with
      | some ⟨chatID, .paidGlobal now⟩ =>
          let (d, l) := s.limiter.takePerChat (chatKey chatID) now
          some { s.setPhase i chatID
            (if d.allowed then .granted now else refusedPhase s.clock d) with limiter := l }
      | _ => none
  | .wake i =>
      match s.calls[i]? with
      | some ⟨chatID, .waiting t⟩ => if t ≤ s.clock then some (s.setPhase i chatID .woken) else none
      | _ => none
  | .cancel i =>
      match s.calls[i]? with
      | some ⟨chatID, .waiting _⟩ => some (s.setPhase i chatID .returned)
      | _ => none
  | .sendMessage i =>
      match s.calls[i]? with
      | some ⟨chatID, .granted _⟩ | some ⟨chatID, .woken⟩ =>
          some { s.setPhase i chatID .returned with sent := s.sent ++ [(chatID, s.clock)] }
      | _ => none

def newDispatcher (now : Time) : DispatcherState where
  clock := now
  limiter := newDispatchLimiter now
  calls := []
  sent := []

/-- The outgoing rate bound: in every window, per chat and over all chats. -/
def RateBounded (s : DispatcherState) : Prop :=
  ∀ start stop, start ≤ stop →
    (∀ chatID,
      ((s.sent.countP fun m => m.1 == chatID && decide (start ≤ m.2 ∧ m.2 ≤ stop) : ℕ) : ℚ) ≤
      defaultBurstPerChat + defaultPerChatRatePerSec * (seconds stop - seconds start)) ∧
    ((s.sent.countP fun m => decide (start ≤ m.2 ∧ m.2 ≤ stop) : ℕ) : ℚ) ≤
      defaultBurstGlobal + defaultGlobalRatePerSec * (seconds stop - seconds start)

/-- The condition under which the bound holds: a call sends only if the limiter
granted it, at the clock reading of the grant. -/
def SendsWhenGranted (s : DispatcherState) : SendAction → Prop
  | .sendMessage i => s.calls[i]?.map SendCall.phase = some (.granted s.clock)
  | _ => True

instance (s : DispatcherState) : DecidablePred (SendsWhenGranted s)
  | .sendMessage i =>
      inferInstanceAs (Decidable (s.calls[i]?.map SendCall.phase = some (.granted s.clock)))
  | .tick _ | .call _ | .takeGlobal _ | .takePerChat _ | .wake _ | .cancel _ => isTrue trivial

/-! ### The accounts of the two kinds of bucket -/

/-- The call has taken a global token at the time `clock` and not used it yet. -/
def SendCall.owesGlobal (clock : Time) (c : SendCall) : Bool :=
  c.phase == .paidGlobal clock || c.phase == .granted clock

def SendCall.owesChat (clock : Time) (key : String) (c : SendCall) : Bool :=
  chatKey c.chatID == key && c.phase == .granted clock

/-- The times of the messages to the chats with the given key. -/
def sentTo (sent : List (ℤ × Time)) (key : String) : List Time :=
  (sent.filter fun m => chatKey m.1 == key).map Prod.snd

theorem sentTo_append (sent : List (ℤ × Time)) (key : String) (chatID : ℤ) (t : Time) :
    sentTo (sent ++ [(chatID, t)]) key =
      if chatKey chatID = key then sentTo sent key ++ [t] else sentTo sent key := by
  by_cases hkey : chatKey chatID = key <;> simp [sentTo, hkey]

/-- The account of the bucket of a chat, which need not exist yet. -/
def ChatAccount (l : DispatchLimiter) (clock : Time) (key : String) (pend : ℕ)
    (log : List Time) : Prop :=
  match l.per key with
  | some b => Ledger seconds l.pRate l.pBurst clock b pend log
  | none => pend = 0 ∧ log = []

structure DispatcherInv (s : DispatcherState) : Prop where
  rates : s.limiter.gRate = defaultGlobalRatePerSec ∧ s.limiter.gBurst = defaultBurstGlobal ∧
    s.limiter.pRate = defaultPerChatRatePerSec ∧ s.limiter.pBurst = defaultBurstPerChat
  readings : ∀ c ∈ s.calls, ∀ now, c.phase.reading = some now → now ≤ s.clock
  global : Ledger seconds s.limiter.gRate s.limiter.gBurst s.clock s.limiter.global
    (s.calls.countP (SendCall.owesGlobal s.clock)) (s.sent.map Prod.snd)
  perChat : ∀ key, ChatAccount s.limiter s.clock key
    (s.calls.countP (SendCall.owesChat s.clock key)) (sentTo s.sent key)

theorem countP_set_of_getElem? {α : Type} {l : List α} {i : ℕ} {old : α} (p : α → Bool)
    (new : α) (h : l[i]? = some old) :
    (l.set i new).countP p + (if p old then 1 else 0) =
      l.countP p + (if p new then 1 else 0) := by
  obtain ⟨hi, rfl⟩ := List.getElem?_eq_some_iff.mp h
  rw [List.countP_set hi]
  have hle : (if p l[i] = true then 1 else 0) ≤ l.countP p := List.boole_getElem_le_countP hi
  omega

/-- The account of a chat's bucket, with the bucket made if need be. -/
theorem ChatAccount.ledger {l : DispatchLimiter} {clock now : Time} {key : String} {pend : ℕ}
    {log : List Time} (h : ChatAccount l clock key pend log) (hrate : 0 ≤ l.pRate)
    (hburst : 0 ≤ l.pBurst) (hnow : now ≤ clock) :
    Ledger seconds l.pRate l.pBurst clock ((l.per key).getD ⟨l.pBurst, now⟩) pend log := by
  unfold ChatAccount at h
  split at h
  · rename_i b hb
    simpa [hb] using h
  · rename_i hnone
    obtain ⟨rfl, rfl⟩ := h
    simpa [hnone] using ledger_full seconds_strictMono hrate hburst hnow

theorem chatAccount_update_self {l : DispatchLimiter} {clock : Time} {key : String} {pend : ℕ}
    {log : List Time} {b : Bucket ℚ Time} :
    ChatAccount { l with per := Function.update l.per key (some b) } clock key pend log ↔
      Ledger seconds l.pRate l.pBurst clock b pend log := by
  simp [ChatAccount]

theorem chatAccount_update_of_ne {l : DispatchLimiter} {clock : Time} {key key' : String}
    {pend : ℕ} {log : List Time} {b : Bucket ℚ Time} (hne : key' ≠ key) :
    ChatAccount { l with per := Function.update l.per key (some b) } clock key' pend log ↔
      ChatAccount l clock key' pend log := by
  simp [ChatAccount, Function.update_of_ne hne]

theorem ChatAccount.window {l : DispatchLimiter} {clock : Time} {key : String} {pend : ℕ}
    {log : List Time} (h : ChatAccount l clock key pend log) (hrate : 0 ≤ l.pRate)
    (hburst : 0 ≤ l.pBurst) {start stop : Time} (hle : start ≤ stop) :
    ((log.countP fun t => decide (start ≤ t ∧ t ≤ stop) : ℕ) : ℚ) ≤
      l.pBurst + l.pRate * (seconds stop - seconds start) :=
  (h.ledger hrate hburst le_rfl).window start stop hle

theorem ChatAccount.lapse {l : DispatchLimiter} {clock clock' : Time} {key : String}
    {pend pend' : ℕ} {log : List Time} (h : ChatAccount l clock key pend log)
    (hclock : clock ≤ clock') (hpend : pend' ≤ pend) (hcurrent : 0 < pend' → clock' = clock) :
    ChatAccount l clock' key pend' log := by
  unfold ChatAccount at h ⊢
  split at h
  · exact Ledger.lapse h hclock hpend hcurrent
  · exact ⟨by omega, h.2⟩

theorem ChatAccount.use {l : DispatchLimiter} {clock : Time} {key : String} {pend : ℕ}
    {log : List Time} (h : ChatAccount l clock key (pend + 1) log) (hrate : 0 ≤ l.pRate) :
    ChatAccount l clock key pend (log ++ [clock]) := by
  unfold ChatAccount at h ⊢
  split at h
  · exact Ledger.use seconds_strictMono hrate h
  · exact absurd h.1 (Nat.succ_ne_zero pend)

/-! ### What each step does to the accounts -/

@[simp] theorem owesGlobal_mk (clock : Time) (chatID : ℤ) (ph : SendPhase) :
    SendCall.owesGlobal clock ⟨chatID, ph⟩ = true ↔
      ph = .paidGlobal clock ∨ ph = .granted clock := by
  simp [SendCall.owesGlobal]

@[simp] theorem owesChat_mk (clock : Time) (key : String) (chatID : ℤ) (ph : SendPhase) :
    SendCall.owesChat clock key ⟨chatID, ph⟩ = true ↔
      chatKey chatID = key ∧ ph = .granted clock := by
  simp [SendCall.owesChat]

@[simp] theorem refusedPhase_reading (clock : Time) (d : Decision) :
    (refusedPhase clock d).reading = none := by
  unfold refusedPhase
  split <;> rfl

theorem ne_of_reading_none {ph : SendPhase} (h : ph.reading = none) (now : Time) :
    ph ≠ .paidGlobal now ∧ ph ≠ .granted now := by
  constructor <;> rintro rfl <;> cases h

theorem DispatcherInv.nonneg {s : DispatcherState} (hs : DispatcherInv s) :
    0 ≤ s.limiter.gRate ∧ 0 ≤ s.limiter.pRate ∧ 0 ≤ s.limiter.pBurst := by
  obtain ⟨hg, -, hp, hb⟩ := hs.rates
  rw [hg, hp, hb]
  norm_num [defaultGlobalRatePerSec, defaultPerChatRatePerSec, defaultBurstPerChat]

/-- Moving one call from `old` to `new`: what has to be shown of the accounts,
with the number of outstanding grants corrected for this call. -/
theorem DispatcherInv.move {s : DispatcherState} (hs : DispatcherInv s) {i : ℕ} {chatID : ℤ}
    {old new : SendPhase} {l : DispatchLimiter} {sent : List (ℤ × Time)}
    (hcall : s.calls[i]? = some ⟨chatID, old⟩)
    (hrates : l.gRate = s.limiter.gRate ∧ l.gBurst = s.limiter.gBurst ∧
      l.pRate = s.limiter.pRate ∧ l.pBurst = s.limiter.pBurst)
    (hreading : ∀ now, new.reading = some now → now ≤ s.clock)
    (hglobal : ∀ pend,
      pend + (if old = .paidGlobal s.clock ∨ old = .granted s.clock then 1 else 0) =
        s.calls.countP (SendCall.owesGlobal s.clock) +
          (if new = .paidGlobal s.clock ∨ new = .granted s.clock then 1 else 0) →
      Ledger seconds s.limiter.gRate s.limiter.gBurst s.clock l.global pend (sent.map Prod.snd))
    (hperChat : ∀ key pend,
      pend + (if chatKey chatID = key ∧ old = .granted s.clock then 1 else 0) =
        s.calls.countP (SendCall.owesChat s.clock key) +
          (if chatKey chatID = key ∧ new = .granted s.clock then 1 else 0) →
      ChatAccount l s.clock key pend (sentTo sent key)) :
    DispatcherInv { s.setPhase i chatID new with limiter := l, sent := sent } := by
  obtain ⟨hgRate, hgBurst, hpRate, hpBurst⟩ := hrates
  refine ⟨?_, ?_, ?_, ?_⟩
  · obtain ⟨h₁, h₂, h₃, h₄⟩ := hs.rates
    exact ⟨hgRate.trans h₁, hgBurst.trans h₂, hpRate.trans h₃, hpBurst.trans h₄⟩
  · intro c hc now hnow
    rcases List.mem_or_eq_of_mem_set hc with hold | rfl
    · exact hs.readings c hold now hnow
    · exact hreading now hnow
  · have hcount := countP_set_of_getElem? (SendCall.owesGlobal s.clock) ⟨chatID, new⟩ hcall
    simp only [owesGlobal_mk] at hcount
    change Ledger seconds l.gRate l.gBurst _ _ _ _
    rw [hgRate, hgBurst]
    exact hglobal _ hcount
  · intro key
    have hcount := countP_set_of_getElem? (SendCall.owesChat s.clock key) ⟨chatID, new⟩ hcall
    simp only [owesChat_mk] at hcount
    exact hperChat key _ hcount

/-- A call that owes nothing before and after changes no account. -/
theorem DispatcherInv.setPhase {s : DispatcherState} (hs : DispatcherInv s) {i : ℕ} {chatID : ℤ}
    {old new : SendPhase} (hcall : s.calls[i]? = some ⟨chatID, old⟩)
    (hold : old.reading = none) (hnew : new.reading = none) :
    DispatcherInv (s.setPhase i chatID new) := by
  refine hs.move hcall ⟨rfl, rfl, rfl, rfl⟩ (fun now h => by simp [hnew] at h) ?_ ?_
  · intro pend hpend
    simp only [ne_of_reading_none hold, ne_of_reading_none hnew, or_self, if_false,
      Nat.add_zero] at hpend
    exact hpend ▸ hs.global
  · intro key pend hpend
    simp only [ne_of_reading_none hold, ne_of_reading_none hnew, and_false, if_false,
      Nat.add_zero] at hpend
    exact hpend ▸ hs.perChat key

/-- A try at the global bucket. -/
theorem DispatcherInv.takeGlobal {s : DispatcherState} (hs : DispatcherInv s) {i : ℕ}
    {chatID : ℤ} {now : Time} (hcall : s.calls[i]? = some ⟨chatID, .read now⟩) :
    DispatcherInv { s.setPhase i chatID
      (if (s.limiter.takeGlobal now).1.allowed then .paidGlobal now
        else refusedPhase s.clock (s.limiter.takeGlobal now).1) with
      limiter := (s.limiter.takeGlobal now).2 } := by
  have hnow : now ≤ s.clock := hs.readings _ (List.mem_of_getElem? hcall) now rfl
  have hledger := ledger_takeToken hs.nonneg.1 hs.global hnow
  change Ledger _ _ _ _ (s.limiter.takeGlobal now).2.global
    (_ + if (s.limiter.takeGlobal now).1.allowed ∧ now = s.clock then 1 else 0) _ at hledger
  have hrefused := ne_of_reading_none
    (refusedPhase_reading s.clock (s.limiter.takeGlobal now).1) s.clock
  refine hs.move hcall ⟨rfl, rfl, rfl, rfl⟩ ?_ ?_ ?_
  · intro now' hreading
    split at hreading
    · exact (Option.some.inj hreading) ▸ hnow
    · simp at hreading
  · intro pend hpend
    have hcount : pend = s.calls.countP (SendCall.owesGlobal s.clock) +
        if (s.limiter.takeGlobal now).1.allowed ∧ now = s.clock then 1 else 0 := by
      by_cases hallowed : (s.limiter.takeGlobal now).1.allowed
      · simpa [hallowed] using hpend
      · simpa [hallowed, hrefused] using hpend
    rw [hcount]
    exact hledger
  · intro key pend hpend
    have hkeep : pend = s.calls.countP (SendCall.owesChat s.clock key) := by
      by_cases hallowed : (s.limiter.takeGlobal now).1.allowed
      · simpa [hallowed] using hpend
      · simpa [hallowed, hrefused] using hpend
    exact hkeep ▸ hs.perChat key

/-- A try at the bucket of the chat, by a call that has a global token. A
refusal gives that token up. -/
theorem DispatcherInv.takePerChat {s : DispatcherState} (hs : DispatcherInv s) {i : ℕ}
    {chatID : ℤ} {now : Time} (hcall : s.calls[i]? = some ⟨chatID, .paidGlobal now⟩) :
    DispatcherInv { s.setPhase i chatID
      (if (s.limiter.takePerChat (chatKey chatID) now).1.allowed then .granted now
        else refusedPhase s.clock (s.limiter.takePerChat (chatKey chatID) now).1) with
      limiter := (s.limiter.takePerChat (chatKey chatID) now).2 } := by
  have hnow : now ≤ s.clock := hs.readings _ (List.mem_of_getElem? hcall) now rfl
  obtain ⟨-, hrate, hburst⟩ := hs.nonneg
  have hledger := ledger_takeToken hrate ((hs.perChat (chatKey chatID)).ledger hrate hburst hnow)
    hnow
  set d := (s.limiter.takePerChat (chatKey chatID) now).1 with hd
  change Ledger _ _ _ _ _ (_ + if d.allowed ∧ now = s.clock then 1 else 0) _ at hledger
  have hrefused := ne_of_reading_none (refusedPhase_reading s.clock d) s.clock
  refine hs.move hcall ⟨rfl, rfl, rfl, rfl⟩ ?_ ?_ ?_
  · intro now' hreading
    split at hreading
    · exact (Option.some.inj hreading) ▸ hnow
    · simp at hreading
  · intro pend hpend
    refine hs.global.lapse le_rfl ?_ fun _ => rfl
    by_cases hallowed : d.allowed
    · simp [hallowed] at hpend
      omega
    · simp [hallowed, hrefused] at hpend
      omega
  · intro key pend hpend
    by_cases hkey : chatKey chatID = key
    · subst hkey
      have hcount : pend = s.calls.countP (SendCall.owesChat s.clock (chatKey chatID)) +
          if d.allowed ∧ now = s.clock then 1 else 0 := by
        by_cases hallowed : d.allowed
        · simpa [hallowed] using hpend
        · simpa [hallowed, hrefused] using hpend
      rw [hcount]
      exact chatAccount_update_self.mpr hledger
    · have hkeep : pend = s.calls.countP (SendCall.owesChat s.clock key) := by
        simpa [hkey] using hpend
      rw [hkeep]
      exact (chatAccount_update_of_ne fun h => hkey h.symm).mpr (hs.perChat key)

/-- The message of a granted call, at its reading. -/
theorem DispatcherInv.sendMessage {s : DispatcherState} (hs : DispatcherInv s) {i : ℕ}
    {chatID : ℤ} (hcall : s.calls[i]? = some ⟨chatID, .granted s.clock⟩) :
    DispatcherInv { s.setPhase i chatID .returned with
      sent := s.sent ++ [(chatID, s.clock)] } := by
  obtain ⟨hgRate, hpRate, -⟩ := hs.nonneg
  refine hs.move hcall ⟨rfl, rfl, rfl, rfl⟩ (fun now h => nomatch h) ?_ ?_
  · intro pend hpend
    have hledger := hs.global
    rw [show s.calls.countP (SendCall.owesGlobal s.clock) = pend + 1 by simpa using hpend.symm]
      at hledger
    rw [List.map_append]
    exact hledger.use seconds_strictMono hgRate
  · intro key pend hpend
    have haccount := hs.perChat key
    rw [sentTo_append]
    by_cases hkey : chatKey chatID = key
    · rw [show s.calls.countP (SendCall.owesChat s.clock key) = pend + 1 by
        simpa [hkey] using hpend.symm] at haccount
      rw [if_pos hkey]
      exact haccount.use hpRate
    · have hkeep : pend = s.calls.countP (SendCall.owesChat s.clock key) := by
        simpa [hkey] using hpend
      rw [if_neg hkey, hkeep]
      exact haccount

/-- When time passes, no grant is current any more. -/
theorem DispatcherInv.tick {s : DispatcherState} (hs : DispatcherInv s) {now : Time}
    (hnow : s.clock ≤ now) : DispatcherInv { s with clock := now } := by
  rcases hnow.eq_or_lt with rfl | hlt
  · exact hs
  · -- every reading is at most the old clock
    have hstale : ∀ c ∈ s.calls, ∀ t, c.phase.reading = some t → t ≠ now := fun c hc t ht =>
      ((hs.readings c hc t ht).trans_lt hlt).ne
    have hglobal : s.calls.countP (SendCall.owesGlobal now) = 0 := by
      rw [List.countP_eq_zero]
      rintro ⟨chatID, ph⟩ hc howes
      rcases (owesGlobal_mk now chatID ph).mp howes with rfl | rfl
      · exact hstale _ hc now rfl rfl
      · exact hstale _ hc now rfl rfl
    have hperChat : ∀ key, s.calls.countP (SendCall.owesChat now key) = 0 := by
      intro key
      rw [List.countP_eq_zero]
      rintro ⟨chatID, ph⟩ hc howes
      obtain ⟨-, rfl⟩ := (owesChat_mk now key chatID ph).mp howes
      exact hstale _ hc now rfl rfl
    refine ⟨hs.rates, fun c hc t ht => (hs.readings c hc t ht).trans hnow, ?_, fun key => ?_⟩
    · exact hs.global.lapse hnow (by simp [hglobal]) fun h => by simp [hglobal] at h
    · exact (hs.perChat key).lapse hnow (by simp [hperChat]) fun h => by simp [hperChat] at h

theorem dispatcherInv_new (now : Time) : DispatcherInv (newDispatcher now) where
  rates := ⟨rfl, rfl, rfl, rfl⟩
  readings c hc := nomatch hc
  global := ledger_full seconds_strictMono (by norm_num [newDispatcher, newDispatchLimiter,
    defaultGlobalRatePerSec]) (by norm_num [newDispatcher, newDispatchLimiter,
    defaultBurstGlobal]) le_rfl
  perChat key := ⟨rfl, rfl⟩

theorem DispatcherInv.call {s : DispatcherState} (hs : DispatcherInv s) (chatID : ℤ) :
    DispatcherInv { s with calls := s.calls ++ [⟨chatID, .read s.clock⟩] } := by
  refine ⟨hs.rates, ?_, ?_, ?_⟩
  · intro c hc now hnow
    rcases List.mem_append.mp hc with hold | hnew
    · exact hs.readings c hold now hnow
    · rw [List.mem_singleton.mp hnew] at hnow
      exact (Option.some.inj hnow).ge
  · simpa [List.countP_append, List.countP_singleton] using hs.global
  · intro key
    simpa [List.countP_append, List.countP_singleton] using hs.perChat key

theorem dispatcherInv_step (s : DispatcherState) (a : SendAction) (s' : DispatcherState)
    (hs : DispatcherInv s) (hgranted : SendsWhenGranted s a) (h : sendStep s a = some s') :
    DispatcherInv s' := by
  cases a with
  | tick now =>
      simp only [sendStep] at h
      split at h
      · cases h
        exact hs.tick ‹_›
      · cases h
  | call chatID =>
      cases h
      exact hs.call chatID
  | takeGlobal i =>
      simp only [sendStep] at h
      split at h
      · rename_i hcall
        cases h
        exact hs.takeGlobal hcall
      · cases h
  | takePerChat i =>
      simp only [sendStep] at h
      split at h
      · rename_i hcall
        cases h
        exact hs.takePerChat hcall
      · cases h
  | wake i =>
      simp only [sendStep] at h
      split at h
      · rename_i hcall
        split at h
        · cases h
          exact hs.setPhase hcall rfl rfl
        · cases h
      · cases h
  | cancel i =>
      simp only [sendStep] at h
      split at h
      · rename_i hcall
        cases h
        exact hs.setPhase hcall rfl rfl
      · cases h
  | sendMessage i =>
      obtain ⟨⟨chatID, ph⟩, hcall, rfl⟩ := Option.map_eq_some_iff.mp hgranted
      simp only [sendStep, hcall] at h
      cases h
      exact hs.sendMessage hcall

theorem DispatcherInv.rateBounded {s : DispatcherState} (hs : DispatcherInv s) :
    RateBounded s := by
  intro start stop hle
  obtain ⟨hgRate, hgBurst, hpRate, hpBurst⟩ := hs.rates
  obtain ⟨-, hrate, hburst⟩ := hs.nonneg
  constructor
  · intro chatID
    have hwindow := (hs.perChat (chatKey chatID)).window hrate hburst hle
    rw [hpRate, hpBurst] at hwindow
    refine le_trans ?_ hwindow
    rw [sentTo, List.countP_map, List.countP_filter]
    have hmono : (s.sent.countP fun m => m.1 == chatID && decide (start ≤ m.2 ∧ m.2 ≤ stop)) ≤
        s.sent.countP fun m => decide (start ≤ m.2 ∧ m.2 ≤ stop) &&
          (chatKey m.1 == chatKey chatID) := by
      apply List.countP_mono_left
      intro m _ hm
      simp only [Bool.and_eq_true, beq_iff_eq] at hm ⊢
      exact ⟨hm.2, by rw [hm.1]⟩
    exact_mod_cast hmono
  · have hwindow := hs.global.window start stop hle
    rw [hgRate, hgBurst, List.countP_map] at hwindow
    exact hwindow

/-- **The limiter keeps the rate bound** in every run in which each message is
sent by a call it granted, at the clock reading of the grant. -/
theorem rateBounded_of_sendsWhenGranted {now : Time} {as : List SendAction} {s : DispatcherState}
    (hgranted : Guarded sendStep SendsWhenGranted (newDispatcher now) as)
    (hrun : run sendStep (newDispatcher now) as = some s) : RateBounded s :=
  (run_invariant_of_guarded dispatcherInv_step (dispatcherInv_new now) hgranted hrun).rateBounded

/-- Two calls to two chats, each granted and sent at once, and a third call a
second later. -/
def grantedSchedule : List SendAction :=
  [.call (-100), .takeGlobal 0, .takePerChat 0, .sendMessage 0,
    .call (-200), .takeGlobal 1, .takePerChat 1, .sendMessage 1,
    .tick second, .call (-100), .takeGlobal 2, .takePerChat 2, .sendMessage 2]

theorem grantedSchedule_rateBounded :
    ∃ s, run sendStep (newDispatcher 0) grantedSchedule = some s ∧
      s.sent = [(-100, 0), (-200, 0), (-100, second)] ∧ RateBounded s := by
  have hsent : (run sendStep (newDispatcher 0) grantedSchedule).map DispatcherState.sent =
      some [(-100, 0), (-200, 0), (-100, second)] := by decide +kernel
  obtain ⟨s, hrun, hs⟩ := Option.map_eq_some_iff.mp hsent
  exact ⟨s, hrun, hs, rateBounded_of_sendsWhenGranted (by decide +kernel) hrun⟩

/-- Five calls to one chat at the same time. Two are granted; the other three are
all told to wait one second, and then all send. -/
def sleepersSchedule : List SendAction :=
  [.call (-100), .call (-100), .call (-100), .call (-100), .call (-100),
    .takeGlobal 0, .takeGlobal 1, .takeGlobal 2, .takeGlobal 3, .takeGlobal 4,
    .takePerChat 0, .takePerChat 1, .takePerChat 2, .takePerChat 3, .takePerChat 4,
    .sendMessage 0, .sendMessage 1, .tick second, .wake 2, .wake 3, .wake 4,
    .sendMessage 2, .sendMessage 3, .sendMessage 4]

theorem sleepers_exceed_rate :
    ∃ s, run sendStep (newDispatcher 0) sleepersSchedule = some s ∧ ¬ RateBounded s := by
  have hsent : (run sendStep (newDispatcher 0) sleepersSchedule).map DispatcherState.sent =
      some [(-100, 0), (-100, 0), (-100, second), (-100, second), (-100, second)] := by
    decide +kernel
  obtain ⟨s, hrun, hs⟩ := Option.map_eq_some_iff.mp hsent
  refine ⟨s, hrun, fun hbounded => ?_⟩
  have hthree := (hbounded second second le_rfl).1 (-100)
  rw [hs] at hthree
  norm_num [defaultBurstPerChat, List.countP_cons, second] at hthree

end TelegramServer.Dispatch
