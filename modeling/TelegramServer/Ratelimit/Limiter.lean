import TelegramServer.Dispatch.Limiter
import TelegramServer.Lib.Machine
import Mathlib.Data.List.Induction

/-!
The request limiter (`internal/ratelimit/limiter.go`): one token bucket for each
key, made full at the first call. The clock is read before the lock is taken, so
the readings of successive calls come in any order. A reading that is not later
than the last refill refills nothing, and therefore a bucket is always up to date
with the latest reading of its key: admissions are entered in the account of the
bucket under that reading and not under their own.
-/

namespace TelegramServer.Ratelimit

open Go Lib Dispatch

structure Policy where
  ratePerSec : ℚ
  burst : ℚ

structure BucketLimiter where
  policyFn : String → Policy
  buckets : String → Option (Bucket ℚ Time)

def newBucketLimiter (policyFn : String → Policy) : BucketLimiter := ⟨policyFn, fun _ => none⟩

/-- A call of `Allow` with the clock reading it made. -/
structure Call where
  now : Time
  key : String

/-- `bucketLimiter.Allow`. -/
def BucketLimiter.allow (l : BucketLimiter) (c : Call) : Decision × BucketLimiter :=
  let pol := l.policyFn c.key
  if pol.ratePerSec ≤ 0 ∨ pol.burst ≤ 0 then ({ allowed := true }, l)
  else
    let b := (l.buckets c.key).getD ⟨pol.burst, c.now⟩
    let (d, b) := takeToken pol.ratePerSec pol.burst c.now b
    (d, { l with buckets := Function.update l.buckets c.key (some b) })

/-- The policy of `NewRequestLimiter`. -/
def requestPolicy (defaultPolicy : Policy) (overrides : String → Option Policy) (key : String) :
    Policy :=
  (overrides key).getD defaultPolicy

/-- The calls, each with its decision. -/
def BucketLimiter.decisions (l : BucketLimiter) (calls : List Call) : List (Call × Decision) :=
  answers allow l calls

def BucketLimiter.after (l : BucketLimiter) (calls : List Call) : BucketLimiter :=
  final allow l calls

/-- The clock readings of the calls on a key. -/
def readings (key : String) (calls : List Call) : Set Time :=
  {t | ∃ c ∈ calls, c.key = key ∧ c.now = t}

/-- The call was on the key, and it was admitted. -/
def granted (key : String) (o : Call × Decision) : Bool := o.1.key = key && o.2.allowed

/-- The limiter enforces the policy of a key along a sequence of calls. -/
structure Conforms (policyFn : String → Policy) (key : String) (calls : List Call) : Prop where
  /-- The bucket is never overdrawn and never overfull. -/
  bounded : ∀ b, ((newBucketLimiter policyFn).after calls).buckets key = some b →
    0 ≤ b.tokens ∧ b.tokens ≤ (policyFn key).burst
  /-- The decisions are those the calls on the key get alone. -/
  independent : ((newBucketLimiter policyFn).decisions calls).filter (fun o => o.1.key = key) =
    (newBucketLimiter policyFn).decisions (calls.filter fun c => c.key = key)
  /-- The admissions from one call on the key to another are paid for. -/
  window : ∀ i j Mi Mj, i ≤ j → (hj : j < calls.length) → (hi : i < calls.length) →
    calls[i].key = key → calls[j].key = key →
    IsGreatest (readings key (calls.take (i + 1))) Mi →
    IsGreatest (readings key (calls.take (j + 1))) Mj →
    (((((newBucketLimiter policyFn).decisions calls).take (j + 1)).drop i).countP
        (granted key) : ℚ) ≤
      (policyFn key).burst + (policyFn key).ratePerSec * (seconds Mj - seconds Mi)

variable {policyFn : String → Policy} {key : String} {calls : List Call} {l : BucketLimiter}
  {c : Call}

/-! ### One call -/

@[simp] theorem policyFn_allow : (l.allow c).2.policyFn = l.policyFn := by
  simp only [BucketLimiter.allow]
  split <;> rfl

/-- A call on another key leaves the bucket alone. -/
theorem buckets_allow_of_ne (h : c.key ≠ key) : (l.allow c).2.buckets key = l.buckets key := by
  simp only [BucketLimiter.allow]
  split
  · rfl
  · exact Function.update_of_ne h.symm _ _

/-- A call on a key with a policy. -/
theorem allow_eq (hrate : 0 < (l.policyFn c.key).ratePerSec)
    (hburst : 0 < (l.policyFn c.key).burst) :
    l.allow c =
      let out := takeToken (l.policyFn c.key).ratePerSec (l.policyFn c.key).burst c.now
        ((l.buckets c.key).getD ⟨(l.policyFn c.key).burst, c.now⟩)
      (out.1, { l with buckets := Function.update l.buckets c.key (some out.2) }) := by
  rw [BucketLimiter.allow, if_neg]
  rintro (h | h)
  · exact absurd hrate (not_lt.mpr h)
  · exact absurd hburst (not_lt.mpr h)

@[simp] theorem policyFn_after (calls : List Call) : (l.after calls).policyFn = l.policyFn := by
  induction calls using List.reverseRecOn with
  | nil => rfl
  | append_singleton calls c ih => rw [BucketLimiter.after, final_concat, policyFn_allow]; exact ih

/-- The decisions on a key depend on its policy and its bucket alone. -/
theorem decisions_filter {l' : BucketLimiter} (hpolicy : l.policyFn = l'.policyFn)
    (hbucket : l.buckets key = l'.buckets key) (calls : List Call) :
    (l.decisions calls).filter (fun o => o.1.key = key) =
      l'.decisions (calls.filter fun c => c.key = key) := by
  refine answers_filter (p := fun c => c.key = key)
    (R := fun l l' => l.policyFn = l'.policyFn ∧ l.buckets key = l'.buckets key)
    BucketLimiter.allow ?_ ?_ ⟨hpolicy, hbucket⟩ calls
  · rintro l l' c ⟨hpol, hbuck⟩ hkey
    obtain rfl : c.key = key := by simpa using hkey
    simp only [policyFn_allow]
    simp only [BucketLimiter.allow, hpol, hbuck]
    split
    · exact ⟨rfl, trivial, hbuck⟩
    · simp
  · rintro l l' c ⟨hpol, hbuck⟩ hkey
    refine ⟨policyFn_allow.trans hpol, (buckets_allow_of_ne ?_).trans hbuck⟩
    simpa using hkey

/-! ### The account of a key -/

theorem readings_concat_of_ne (h : c.key ≠ key) :
    readings key (calls ++ [c]) = readings key calls := by
  ext t
  simp [readings, h]

theorem readings_concat (h : c.key = key) :
    readings key (calls ++ [c]) = insert c.now (readings key calls) := by
  ext t
  simp only [readings, List.mem_append, List.mem_singleton, Set.mem_ofPred_eq, Set.mem_insert_iff]
  constructor
  · rintro ⟨d, hd | rfl, hkey, rfl⟩
    · exact .inr ⟨d, hd, hkey, rfl⟩
    · exact .inl rfl
  · rintro (rfl | ⟨d, hd, hkey, rfl⟩)
    · exact ⟨c, .inr rfl, h, rfl⟩
    · exact ⟨d, .inl hd, hkey, rfl⟩

/-- Every admission since the `i`-th call is entered under a reading that is not earlier than
the latest one at that call. -/
def Entered (key : String) (calls : List Call) (outs : List (Call × Decision)) (log : List Time) :
    Prop :=
  ∀ i M, (hi : i < calls.length) → calls[i].key = key →
    IsGreatest (readings key (calls.take (i + 1))) M →
    (outs.drop i).countP (granted key) ≤ log.countP fun t => M ≤ t

theorem Entered.concat_of_ne {outs : List (Call × Decision)} {log : List Time} {d : Decision}
    (h : Entered key calls outs log) (hlen : outs.length = calls.length) (hkey : c.key ≠ key) :
    Entered key (calls ++ [c]) (outs ++ [(c, d)]) log := by
  intro i M hi hikey hM
  rw [List.length_append, List.length_singleton] at hi
  rcases Nat.lt_succ_iff_lt_or_eq.mp hi with hlt | rfl
  · rw [List.getElem_append_left hlt] at hikey
    rw [List.take_append_of_le_length (by omega)] at hM
    rw [List.drop_append_of_le_length (by omega), List.countP_append, List.countP_singleton,
      granted, if_neg (by simp [hkey]), Nat.add_zero]
    exact h i M hlt hikey hM
  · simp [hkey] at hikey

/-- A call on the key, entered under the latest reading if it was admitted. -/
theorem Entered.concat {outs : List (Call × Decision)} {log : List Time} {d : Decision}
    (h : Entered key calls outs log) (hlen : outs.length = calls.length) (hkey : c.key = key)
    {M' : Time} (hM' : IsGreatest (readings key (calls ++ [c])) M') :
    Entered key (calls ++ [c]) (outs ++ [(c, d)])
      (log ++ if d.allowed then [M'] else []) := by
  intro i M hi hikey hM
  rw [List.length_append, List.length_singleton] at hi
  have hle : M ≤ M' := by
    obtain ⟨e, he, hekey, rfl⟩ := hM.1
    exact hM'.2 ⟨e, List.mem_of_mem_take he, hekey, rfl⟩
  have hnew : [(c, d)].countP (granted key) ≤
      (if d.allowed then [M'] else []).countP fun t => M ≤ t := by
    rw [List.countP_singleton]
    cases hd : d.allowed with
    | false => simp [granted, hd]
    | true => simp [granted, hd, hle, hkey]
  rcases Nat.lt_succ_iff_lt_or_eq.mp hi with hlt | rfl
  · rw [List.getElem_append_left hlt] at hikey
    rw [List.take_append_of_le_length (by omega)] at hM
    rw [List.drop_append_of_le_length (by omega), List.countP_append, List.countP_append]
    exact Nat.add_le_add (h i M hlt hikey hM) hnew
  · rw [← hlen, List.drop_left, List.countP_append]
    exact hnew.trans (Nat.le_add_left _ _)

/-- What is known of the bucket of a key after some calls. -/
def Accounted (pol : Policy) (key : String) (calls : List Call) (outs : List (Call × Decision)) :
    Option (Bucket ℚ Time) → Prop
  | none => ∀ c ∈ calls, c.key ≠ key
  | some b => IsGreatest (readings key calls) b.refill ∧
      ∃ log, Ledger seconds pol.ratePerSec pol.burst b.refill b 0 log ∧ Entered key calls outs log

/-- **Step.** One try at the bucket of the key. -/
theorem accounted_takeToken {pol : Policy} (hrate : 0 < pol.ratePerSec) {b : Bucket ℚ Time}
    {outs : List (Call × Decision)} {log : List Time}
    (hledger : Ledger seconds pol.ratePerSec pol.burst b.refill b 0 log)
    (hentered : Entered key calls outs log) (hlen : outs.length = calls.length)
    (hkey : c.key = key)
    (hlatest : IsGreatest (readings key (calls ++ [c])) (max b.refill c.now)) :
    Accounted pol key (calls ++ [c])
      (outs ++ [(c, (takeToken pol.ratePerSec pol.burst c.now b).1)])
      (some (takeToken pol.ratePerSec pol.burst c.now b).2) := by
  have hrefill : (b.fill seconds pol.ratePerSec pol.burst c.now).refill = max b.refill c.now :=
    refill_fill seconds_strictMono c.now
  unfold takeToken
  dsimp only
  split
  · next htoken =>
      have hgranted := hledger.granted seconds_strictMono hrate.le htoken
      refine ⟨?_, log ++ [max b.refill c.now], ?_, ?_⟩
      · exact (congrArg (IsGreatest _) hrefill).mpr hlatest
      · change Ledger _ _ _ (b.fill seconds pol.ratePerSec pol.burst c.now).refill _ _ _
        rw [hrefill]
        exact hgranted
      · simpa using hentered.concat (d := { allowed := true }) hlen hkey hlatest
  · have hrefilled := hledger.refilled seconds_strictMono hrate.le c.now
    refine ⟨?_, log, ?_, ?_⟩
    · exact (congrArg (IsGreatest _) hrefill).mpr hlatest
    · rw [hrefill]
      exact hrefilled
    · have hconcat := hentered.concat (d := { allowed := false, retryAfter := ((1 -
        (b.fill seconds pol.ratePerSec pol.burst c.now).tokens) / pol.ratePerSec * second).floor })
        hlen hkey hlatest
      simpa using hconcat

/-- **Run.** The account of a key with a policy, along every sequence of calls. -/
theorem accounted_after (hrate : 0 < (policyFn key).ratePerSec) (hburst : 0 < (policyFn key).burst)
    (calls : List Call) :
    Accounted (policyFn key) key calls ((newBucketLimiter policyFn).decisions calls)
      (((newBucketLimiter policyFn).after calls).buckets key) := by
  induction calls using List.reverseRecOn with
  | nil => simp [BucketLimiter.after, final, newBucketLimiter, Accounted]
  | append_singleton calls c ih =>
      have hlen : ((newBucketLimiter policyFn).decisions calls).length = calls.length :=
        length_answers ..
      rw [BucketLimiter.after, final_concat, BucketLimiter.decisions, answers_concat]
      rw [BucketLimiter.decisions] at ih hlen
      rw [BucketLimiter.after] at ih
      have hpolicy : (final BucketLimiter.allow (newBucketLimiter policyFn) calls).policyFn =
          policyFn := policyFn_after calls
      generalize final BucketLimiter.allow (newBucketLimiter policyFn) calls = l at ih hpolicy
      by_cases hkey : c.key = key
      · subst hkey
        rw [allow_eq (by rwa [hpolicy]) (by rwa [hpolicy])]
        simp only [Function.update_self, hpolicy]
        cases hbucket : l.buckets c.key with
        | none =>
            rw [hbucket] at ih
            refine accounted_takeToken hrate
              (ledger_full seconds_strictMono hrate.le hburst.le le_rfl) ?_ hlen rfl ?_
            · intro i M hi hikey
              exact absurd hikey (ih _ (List.getElem_mem hi))
            · rw [readings_concat rfl]
              have hempty : readings c.key calls = ∅ := by
                ext t
                simp only [readings, Set.mem_ofPred_eq, Set.mem_empty_iff_false, iff_false]
                rintro ⟨d, hd, hdkey, -⟩
                exact ih d hd hdkey
              simp [hempty]
        | some b =>
            rw [hbucket] at ih
            obtain ⟨hlatest, log, hledger, hentered⟩ := ih
            refine accounted_takeToken hrate hledger hentered hlen rfl ?_
            rw [readings_concat rfl, max_comm]
            exact hlatest.insert c.now
      · rw [buckets_allow_of_ne hkey]
        cases hbucket : l.buckets key with
        | none =>
            rw [hbucket] at ih
            intro d hd
            rcases List.mem_append.mp hd with hd | hd
            · exact ih d hd
            · rw [List.mem_singleton.mp hd]
              exact hkey
        | some b =>
            rw [hbucket] at ih
            obtain ⟨hlatest, log, hledger, hentered⟩ := ih
            refine ⟨?_, log, hledger, hentered.concat_of_ne hlen hkey⟩
            rw [readings_concat_of_ne hkey]
            exact hlatest

/-- **Conformance.** Whatever the readings and the other keys, the limiter enforces the policy
of a key. -/
theorem allow_conforms (policyFn : String → Policy) (key : String)
    (hrate : 0 < (policyFn key).ratePerSec) (hburst : 0 < (policyFn key).burst)
    (calls : List Call) : Conforms policyFn key calls where
  bounded := by
    intro b hb
    have haccount := accounted_after hrate hburst calls
    rw [hb] at haccount
    obtain ⟨-, log, hledger, -⟩ := haccount
    exact ⟨hledger.nonneg, hledger.capped⟩
  independent := decisions_filter rfl rfl calls
  window := by
    intro i j Mi Mj hij hj hi hikey hjkey hMi hMj
    have haccount := accounted_after hrate hburst (calls.take (j + 1))
    rw [BucketLimiter.decisions, take_answers]
    cases hbucket : ((newBucketLimiter policyFn).after (calls.take (j + 1))).buckets key with
    | none =>
        rw [hbucket] at haccount
        have hmem : calls[j] ∈ calls.take (j + 1) := by
          rw [List.mem_take_iff_getElem]
          exact ⟨j, by omega, rfl⟩
        exact absurd hjkey (haccount _ hmem)
    | some b =>
        rw [hbucket] at haccount
        obtain ⟨hlatest, log, hledger, hentered⟩ := haccount
        obtain rfl : b.refill = Mj := hlatest.unique hMj
        have hile : i < (calls.take (j + 1)).length := by
          rw [List.length_take]
          omega
        have hcount := hentered i Mi hile (by simpa using hikey)
          (by rwa [List.take_take, min_eq_left (by omega)])
        have hle : Mi ≤ b.refill := by
          obtain ⟨e, he, hekey, rfl⟩ := hMi.1
          refine hMj.2 ⟨e, ?_, hekey, rfl⟩
          exact (List.take_subset_take_left calls (by omega)) he
        have hsince := hledger.since Mi hle
        have hnonneg := hledger.nonneg
        have hcast : (((answers BucketLimiter.allow (newBucketLimiter policyFn)
            (calls.take (j + 1))).drop i).countP (granted key) : ℚ) ≤
              (log.countP fun t => decide (Mi ≤ t) : ℕ) := by
          exact_mod_cast hcount
        push_cast at hsince
        linarith

/-- The policy of the app `slow` is one request per second, in bursts of two. -/
def slowPolicy : String → Policy :=
  requestPolicy ⟨100, 100⟩ fun key => if key = "app:slow" then some ⟨1, 2⟩ else none

/-- The second reading of the app is earlier than its first. -/
theorem slowPolicy_conforms :
    Conforms slowPolicy "app:slow"
      [⟨3 * second, "app:slow"⟩, ⟨4 * second, "app:fast"⟩, ⟨second, "app:slow"⟩] :=
  allow_conforms slowPolicy "app:slow" (by decide) (by decide) _

end TelegramServer.Ratelimit
