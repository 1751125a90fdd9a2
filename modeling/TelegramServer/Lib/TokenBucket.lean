import Mathlib.Algebra.Order.Field.Basic
import Mathlib.Tactic.Linarith
import Mathlib.Tactic.Ring

/-!
Token buckets. A bucket refills at `rate` tokens per second up to `burst`, and
an admission takes one token. Time is any linear order with a strictly monotone
reading `sec` in seconds.

`Ledger` is the account of a bucket whose admissions are used later than they
are given: some of them are outstanding, and the uses made so far are in a log.
Its field `since` is the usual potential argument, read backwards from the last
refill, and `window` is what it is for: in every window the log holds at most
`burst` entries more than the refill of that window pays for. The rules below
say which moves keep the account balanced.
-/

namespace TelegramServer.Lib

structure Bucket (K T : Type*) where
  tokens : K
  refill : T

section Bucket

variable {K T : Type*} [Field K] [LinearOrder K]

/-- Refill up to the reading `now`; a reading that is not later changes
nothing. -/
def Bucket.fill (sec : T → K) (rate burst : K) (now : T) (b : Bucket K T) : Bucket K T :=
  let elapsed := sec now - sec b.refill
  if 0 < elapsed then { tokens := min (b.tokens + elapsed * rate) burst, refill := now } else b

def Bucket.spend (b : Bucket K T) : Bucket K T := { b with tokens := b.tokens - 1 }

end Bucket

section Ledger

variable {K T : Type*} [Field K] [LinearOrder K] [IsStrictOrderedRing K] [LinearOrder T]

/-- The account of a bucket at the time `clock`, with `pend` admissions that can
still be used and the uses `log`. -/
structure Ledger (sec : T → K) (rate burst : K) (clock : T) (b : Bucket K T) (pend : ℕ)
    (log : List T) : Prop where
  nonneg : 0 ≤ b.tokens
  capped : b.tokens ≤ burst
  refill_le : b.refill ≤ clock
  log_le : ∀ t ∈ log, t ≤ b.refill
  current : 0 < pend → b.refill = clock
  since : ∀ s ≤ b.refill, ((log.countP fun t => decide (s ≤ t) : ℕ) : K) + pend + b.tokens ≤
    burst + rate * (sec b.refill - sec s)
  window : ∀ s e, s ≤ e → ((log.countP fun t => decide (s ≤ t ∧ t ≤ e) : ℕ) : K) ≤
    burst + rate * (sec e - sec s)

variable {sec : T → K} {rate burst : K} {clock : T} {b : Bucket K T} {pend : ℕ} {log : List T}

theorem fill_of_le (hsec : StrictMono sec) {now : T} (h : now ≤ b.refill) :
    b.fill sec rate burst now = b := by
  have hle : ¬ 0 < sec now - sec b.refill := by
    have := hsec.monotone h
    linarith
  simp only [Bucket.fill, if_neg hle]

theorem fill_of_lt (hsec : StrictMono sec) {now : T} (h : b.refill < now) :
    b.fill sec rate burst now =
      { tokens := min (b.tokens + (sec now - sec b.refill) * rate) burst, refill := now } := by
  have hlt : 0 < sec now - sec b.refill := sub_pos.mpr (hsec h)
  simp only [Bucket.fill, if_pos hlt]

theorem refill_fill (hsec : StrictMono sec) (now : T) :
    (b.fill sec rate burst now).refill = max b.refill now := by
  rcases le_or_gt now b.refill with hle | hlt
  · rw [fill_of_le hsec hle, max_eq_left hle]
  · rw [fill_of_lt hsec hlt, max_eq_right hlt.le]

/-- A bucket that starts full has a balanced account. -/
theorem ledger_full (hsec : StrictMono sec) (hrate : 0 ≤ rate) (hburst : 0 ≤ burst) {now : T}
    (hnow : now ≤ clock) : Ledger sec rate burst clock ⟨burst, now⟩ 0 [] where
  nonneg := hburst
  capped := le_refl burst
  refill_le := hnow
  log_le t ht := nomatch ht
  current h := absurd h (lt_irrefl 0)
  since s hs := by
    have hpaid : 0 ≤ rate * (sec now - sec s) :=
      mul_nonneg hrate (sub_nonneg.mpr (hsec.monotone hs))
    simpa using hpaid
  window s e hse := by
    have hpaid : 0 ≤ rate * (sec e - sec s) :=
      mul_nonneg hrate (sub_nonneg.mpr (hsec.monotone hse))
    simp only [List.countP_nil, Nat.cast_zero]
    linarith

/-- Admissions may lapse, and they all do when time passes. -/
theorem Ledger.lapse (h : Ledger sec rate burst clock b pend log) {clock' : T} {pend' : ℕ}
    (hclock : clock ≤ clock') (hpend : pend' ≤ pend) (hcurrent : 0 < pend' → clock' = clock) :
    Ledger sec rate burst clock' b pend' log where
  nonneg := h.nonneg
  capped := h.capped
  refill_le := h.refill_le.trans hclock
  log_le := h.log_le
  current hpos := (h.current (hpos.trans_le hpend)).trans (hcurrent hpos).symm
  since s hs := by
    have hsince := h.since s hs
    have hcast : (pend' : K) ≤ pend := by exact_mod_cast hpend
    linarith
  window := h.window

/-- A refill at a reading that is not in the future. -/
theorem Ledger.fill (hsec : StrictMono sec) (hrate : 0 ≤ rate)
    (h : Ledger sec rate burst clock b pend log) {now : T} (hnow : now ≤ clock) :
    Ledger sec rate burst clock (b.fill sec rate burst now) pend log := by
  rcases le_or_gt now b.refill with hle | hlt
  · rw [fill_of_le hsec hle]
    exact h
  · rw [fill_of_lt hsec hlt]
    have hgain : 0 ≤ (sec now - sec b.refill) * rate :=
      mul_nonneg (sub_nonneg.mpr (hsec.monotone hlt.le)) hrate
    have hburst : 0 ≤ burst := h.nonneg.trans h.capped
    -- an outstanding admission would mean that the bucket was refilled just now
    have hpend : pend = 0 := by
      by_contra hne
      have hcur := h.current (Nat.pos_of_ne_zero hne)
      exact absurd hnow (not_le.mpr (hcur ▸ hlt))
    refine ⟨?_, min_le_right _ _, hnow, fun t ht => (h.log_le t ht).trans hlt.le, ?_, ?_,
      h.window⟩
    · exact le_min (add_nonneg h.nonneg hgain) hburst
    · intro hpos
      exact absurd hpos (by omega)
    · intro s hs
      rcases le_or_gt s b.refill with hold | hnew
      · have hsince := h.since s hold
        have hmin := min_le_left (b.tokens + (sec now - sec b.refill) * rate) burst
        have hsplit : rate * (sec now - sec s) =
            rate * (sec b.refill - sec s) + (sec now - sec b.refill) * rate := by ring
        rw [hsplit]
        linarith
      · -- nothing was used since `s`, and the bucket holds at most `burst`
        have hzero : (log.countP fun t => decide (s ≤ t)) = 0 := by
          rw [List.countP_eq_zero]
          intro t ht
          have hlate := (h.log_le t ht).trans_lt hnew
          simpa using hlate
        have hpaid : 0 ≤ rate * (sec now - sec s) :=
          mul_nonneg hrate (sub_nonneg.mpr (hsec.monotone hs))
        have hmin := min_le_right (b.tokens + (sec now - sec b.refill) * rate) burst
        rw [hzero, hpend]
        simp only [Nat.cast_zero]
        linarith

/-- An admission costs a token. It is outstanding only if the bucket is up to
date. -/
theorem Ledger.admit (h : Ledger sec rate burst clock b pend log) (htoken : 1 ≤ b.tokens)
    {pend' : ℕ} (hpend : pend' ≤ pend + 1) (hcurrent : 0 < pend' → b.refill = clock) :
    Ledger sec rate burst clock b.spend pend' log where
  nonneg := sub_nonneg.mpr htoken
  capped := (sub_le_self b.tokens zero_le_one).trans h.capped
  refill_le := h.refill_le
  log_le := h.log_le
  current := hcurrent
  since s hs := by
    have hsince := h.since s hs
    have hcast : (pend' : K) ≤ pend + 1 := by exact_mod_cast hpend
    change _ + (pend' : K) + (b.tokens - 1) ≤ burst + rate * (sec b.refill - sec s)
    linarith
  window := h.window

/-- The use of an outstanding admission. -/
theorem Ledger.use (hsec : StrictMono sec) (hrate : 0 ≤ rate)
    (h : Ledger sec rate burst clock b (pend + 1) log) :
    Ledger sec rate burst clock b pend (log ++ [clock]) := by
  have hcur : b.refill = clock := h.current (Nat.succ_pos pend)
  have hcast : ((pend + 1 : ℕ) : K) = pend + 1 := by push_cast; ring
  refine ⟨h.nonneg, h.capped, h.refill_le, ?_, fun _ => hcur, ?_, ?_⟩
  · intro t ht
    rcases List.mem_append.mp ht with hold | hnew
    · exact h.log_le t hold
    · rw [List.mem_singleton.mp hnew, hcur]
  · intro s hs
    have hsince := h.since s hs
    rw [List.countP_append, List.countP_singleton, if_pos (by simpa [hcur] using hs)]
    push_cast
    linarith
  · intro s e hse
    rw [List.countP_append, List.countP_singleton]
    split
    · -- the window reaches the new entry: everything since `s` is paid for
      rename_i hin
      obtain ⟨hs, he⟩ : s ≤ clock ∧ clock ≤ e := by simpa using hin
      have hsince := h.since s (hcur ▸ hs)
      have hmono : (log.countP fun t => decide (s ≤ t ∧ t ≤ e)) ≤
          log.countP fun t => decide (s ≤ t) :=
        List.countP_mono_left fun t _ ht => by
          simp only [decide_eq_true_eq] at ht ⊢
          exact ht.1
      have hmono' : ((log.countP fun t => decide (s ≤ t ∧ t ≤ e) : ℕ) : K) ≤
          (log.countP fun t => decide (s ≤ t) : ℕ) := by exact_mod_cast hmono
      have hpaid : rate * (sec b.refill - sec s) ≤ rate * (sec e - sec s) :=
        mul_le_mul_of_nonneg_left (sub_le_sub_right (hcur ▸ hsec.monotone he) _) hrate
      have hpend : (0 : K) ≤ pend := Nat.cast_nonneg pend
      have hnonneg := h.nonneg
      push_cast
      linarith
    · simpa using h.window s e hse

/-! A bucket whose admissions are used as they are given is up to date with the latest reading. -/

/-- A refill at any reading. -/
theorem Ledger.refilled (hsec : StrictMono sec) (hrate : 0 ≤ rate)
    (h : Ledger sec rate burst b.refill b 0 log) (now : T) :
    Ledger sec rate burst (max b.refill now) (b.fill sec rate burst now) 0 log :=
  (h.lapse (le_max_left b.refill now) le_rfl (fun hpos => absurd hpos (lt_irrefl 0))).fill hsec
    hrate (le_max_right b.refill now)

/-- A refill and an admission, which is entered under the latest reading. -/
theorem Ledger.granted (hsec : StrictMono sec) (hrate : 0 ≤ rate)
    (h : Ledger sec rate burst b.refill b 0 log) {now : T}
    (htoken : 1 ≤ (b.fill sec rate burst now).tokens) :
    Ledger sec rate burst (max b.refill now) (b.fill sec rate burst now).spend 0
      (log ++ [max b.refill now]) := by
  have hadmitted := Ledger.admit (h.refilled hsec hrate now) htoken (le_refl (0 + 1))
    fun _ => refill_fill hsec now
  exact hadmitted.use hsec hrate

end Ledger

end TelegramServer.Lib
