import TelegramServer.Mocktelegram.LongPoll
import Mathlib.Data.List.Perm.Basic
import Mathlib.Data.List.ReduceOption

/-!
What becomes of an injected update. `Inject` takes a number for it before it takes
the mutex, so updates that are injected at the same time enter the queue in any
order; an update whose text is `null` uses up its number and gets no further. The
first poll that looks at the queue takes all of it; a full queue drops its oldest
entry for a new one. The polls of a run look at the queue in any order, and any of
them may find that its client is gone.

Every step does one of five things to the updates and the answers (`ServerEffect`).
From this the account of a run follows: every update that got its number is either
on its way or has entered the queue, once, and what entered is cut into rounds. A
round is what the queue dropped and then what one poll took, and the queue drops
nothing unless that poll gets a full one.
-/

namespace TelegramServer.Mocktelegram

open Go Lib

/-- The updates a poll was answered with. -/
def Poll.updates (p : Poll) : List Bytes :=
  match p.phase with
  | .waiting _ => []
  | .answered _ updates => updates

/-- The answers so far, in the order of the requests. -/
def Server.answers (s : Server) : List (List Bytes) := s.polls.map Poll.updates

/-- The text an action injects. -/
def Action.injected : Action → Option Bytes
  | .inject raw => some raw
  | _ => none

/-- The texts of a run, in the order in which they took their numbers. -/
def injectedTexts (as : List Action) : List Bytes := as.filterMap Action.injected

/-- The updates these texts become under their numbers; `null` becomes none. -/
def numbered (codec : Codec) (raws : List Bytes) : List Bytes :=
  (raws.mapIdx fun i raw => codec.withUpdateID raw (i + 1)).reduceOption

/-- The update an action puts into the queue. -/
def queuedBy (s : Server) : Action → List Bytes
  | .enqueue i => (s.inflight[i]?).toList
  | _ => []

/-- The updates a run put into the queue, in that order. -/
def queuedUpdates (codec : Codec) (clock : Time) (as : List Action) : List Bytes :=
  observe (step codec) queuedBy { clock := clock } as

/-- The polls that wait. -/
def Server.Waits (s : Server) (i : ℕ) : Prop :=
  ∃ p deadline, s.polls[i]? = some p ∧ p.phase = .waiting deadline

/-! ### One step -/

/-- What a step does to the updates and to the answers. -/
inductive ServerEffect (codec : Codec) (s : Server) (a : Action) (s' : Server) : Prop
  | quiet (hinjected : a.injected = none) (hqueued : queuedBy s a = [])
      (hseq : s'.updateSeq = s.updateSeq) (hinflight : s'.inflight = s.inflight)
      (hqueue : s'.queue = s.queue) (hanswers : s'.answers = s.answers)
  | injected (raw : Bytes) (ha : a = .inject raw) (hseq : s'.updateSeq = s.updateSeq + 1)
      (hinflight : s'.inflight =
        s.inflight ++ (codec.withUpdateID raw (s.updateSeq + 1)).toList)
      (hqueue : s'.queue = s.queue) (hanswers : s'.answers = s.answers)
  | queued (i : ℕ) (out : Bytes) (ha : a = .enqueue i) (hout : s.inflight[i]? = some out)
      (hseq : s'.updateSeq = s.updateSeq) (hinflight : s'.inflight = s.inflight.eraseIdx i)
      (hqueue : s'.queue = pushWindow maxQueuedUpdates s.queue out)
      (hanswers : s'.answers = s.answers)
  /-- A poll takes the queue: a new one, or one that has waited with no answer. -/
  | taken (hinjected : a.injected = none) (hqueued : queuedBy s a = [])
      (hseq : s'.updateSeq = s.updateSeq) (hinflight : s'.inflight = s.inflight)
      (hqueue : s'.queue = [])
      (hanswers : s'.answers = s.answers ++ [s.queue] ∨
        ∃ i, s.answers[i]? = some [] ∧ s'.answers = s.answers.set i s.queue)

section Step

variable {codec : Codec} {s s' : Server}

theorem Server.Waits.answer {i : ℕ} (h : s.Waits i) : s.answers[i]? = some [] := by
  obtain ⟨p, deadline, hp, hphase⟩ := h
  simp [Server.answers, hp, Poll.updates, hphase]

theorem answers_setPoll (s : Server) (i : ℕ) (p : Poll) :
    (s.setPoll i p).answers = s.answers.set i p.updates := by
  simp [Server.answers, Server.setPoll, List.map_set]

/-- Changing a poll that keeps its answer. -/
theorem answers_setPoll_eq {i : ℕ} {p q : Poll} (hp : s.polls[i]? = some p)
    (h : q.updates = p.updates) : (s.setPoll i q).answers = s.answers := by
  have hget : s.answers[i]? = some p.updates := by simp [Server.answers, hp]
  obtain ⟨hi, hself⟩ := List.getElem?_eq_some_iff.mp hget
  rw [answers_setPoll, h, ← hself, List.set_getElem_self]

theorem answers_getUpdates (s : Server) (body : Bytes) :
    (s.getUpdates codec body).answers = s.answers ++ [s.queue] := by
  simp only [Server.answers, Server.getUpdates, Server.drainQueue, List.map_append, List.map_cons,
    List.map_nil, Poll.updates]
  -- a new poll waits only if there is nothing to take
  by_cases hwait : s.queue = [] ∧ 0 < longPollTimeout codec body
  · simp [hwait]
  · simp [hwait]

theorem serverEffect_wake {i : ℕ} {p : Poll} {deadline : Time} {c : Channel}
    (hp : s.polls[i]? = some p) (hphase : p.phase = .waiting deadline)
    (h : s.wake i p deadline c = some s') : ServerEffect codec s (.select i c) s' := by
  have hempty : p.updates = [] := by rw [Poll.updates, hphase]
  cases c with
  | done =>
      simp only [Server.wake, Option.ite_none_right_eq_some, Option.some.injEq] at h
      obtain ⟨-, rfl⟩ := h
      exact .quiet rfl rfl rfl rfl rfl (answers_setPoll_eq hp hempty.symm)
  | deadline =>
      simp only [Server.wake, Option.ite_none_right_eq_some, Option.some.injEq] at h
      obtain ⟨-, rfl⟩ := h
      exact .quiet rfl rfl rfl rfl rfl (answers_setPoll_eq hp hempty.symm)
  | ticker =>
      simp only [Server.wake] at h
      split at h
      · next hqueue =>
          cases h
          exact .quiet rfl rfl rfl rfl hqueue.symm rfl
      · cases h
        have hwaited : s.Waits i := ⟨p, deadline, hp, hphase⟩
        exact .taken rfl rfl rfl rfl rfl (.inr ⟨i, hwaited.answer, answers_setPoll _ i _⟩)

theorem serverEffect_step {a : Action} (h : step codec s a = some s') :
    ServerEffect codec s a s' := by
  cases a with
  | advance d =>
      cases h
      exact .quiet rfl rfl rfl rfl rfl rfl
  | inject raw =>
      cases h
      exact .injected raw rfl rfl rfl rfl rfl
  | enqueue i =>
      simp only [step, Option.map_eq_some_iff] at h
      obtain ⟨out, hout, rfl⟩ := h
      exact .queued i out rfl hout rfl rfl rfl rfl
  | reset =>
      cases h
      exact .quiet rfl rfl rfl rfl rfl rfl
  | request token method body =>
      cases h
      split
      · next hmethod =>
        subst hmethod
        -- recording the call changes neither the updates nor the polls
        exact .taken rfl rfl rfl rfl rfl
          (.inl (answers_getUpdates (s.record token "getUpdates" body) body))
      · exact .quiet rfl rfl rfl rfl rfl rfl
  | disconnect i =>
      simp only [step, Option.map_eq_some_iff] at h
      obtain ⟨p, hp, rfl⟩ := h
      exact .quiet rfl rfl rfl rfl rfl (answers_setPoll_eq hp rfl)
  | select i c =>
      simp only [step] at h
      split at h
      · cases h
      · next p hp =>
          split at h
          · next deadline hphase => exact serverEffect_wake hp hphase h
          · cases h

end Step

/-! ### The account of a run -/

theorem numbered_concat (codec : Codec) (raws : List Bytes) (raw : Bytes) :
    numbered codec (raws ++ [raw]) =
      numbered codec raws ++ (codec.withUpdateID raw (raws.length + 1)).toList := by
  cases h : codec.withUpdateID raw (raws.length + 1) <;>
    simp [numbered, h, List.reduceOption_append]

/-- What the queue dropped, and then what a poll took. -/
structure Round where
  lost : List Bytes
  batch : List Bytes

/-- Where the updates of a run are, whose texts took their numbers in the order `raws` and which
entered the queue in the order `queued`: the rounds so far, what the queue has dropped since and
what is in it. -/
structure Conserved (codec : Codec) (raws queued : List Bytes) (s : Server) (rounds : List Round)
    (lost : List Bytes) : Prop where
  seq : s.updateSeq = raws.length
  /-- An update is on its way, or it has entered the queue, once. -/
  accounted : (numbered codec raws).Perm (s.inflight ++ queued)
  split : queued = rounds.flatMap (fun r => r.lost ++ r.batch) ++ lost ++ s.queue
  /-- The batches are the answers that have updates: no update is in two of them. -/
  handedOut : (rounds.map Round.batch).Perm (s.answers.filter fun us => us ≠ [])
  /-- Nothing is dropped unless there is a full queue to take. -/
  full : ∀ r ∈ rounds, r.lost ≠ [] → r.batch.length = maxQueuedUpdates
  fullQueue : lost ≠ [] → s.queue.length = maxQueuedUpdates

section Account

variable {codec : Codec} {s s' : Server} {raws queued : List Bytes} {rounds : List Round}
  {lost : List Bytes}

/-- A full window drops its head. -/
theorem pushWindow_split {α : Type*} {cap : ℕ} {l : List α} (hcap : 0 < cap)
    (hl : l.length ≤ cap) (x : α) :
    ∃ dropped, l ++ [x] = dropped ++ pushWindow cap l x ∧
      (dropped ≠ [] → (pushWindow cap l x).length = cap) := by
  unfold pushWindow
  split
  · next hfull =>
      cases l with
      | nil => exact absurd hfull (by simp; omega)
      | cons y l =>
          refine ⟨[y], rfl, fun _ => ?_⟩
          simp only [List.length_cons] at hfull hl
          simp only [List.tail_cons, List.length_append, List.length_singleton]
          omega
  · exact ⟨[], rfl, fun hne => absurd rfl hne⟩

theorem Conserved.quiet (h : Conserved codec raws queued s rounds lost)
    (hseq : s'.updateSeq = s.updateSeq) (hinflight : s'.inflight = s.inflight)
    (hqueue : s'.queue = s.queue) (hanswers : s'.answers = s.answers) :
    Conserved codec raws queued s' rounds lost where
  seq := hseq.trans h.seq
  accounted := hinflight ▸ h.accounted
  split := hqueue ▸ h.split
  handedOut := hanswers ▸ h.handedOut
  full := h.full
  fullQueue := hqueue ▸ h.fullQueue

/-- The new update takes the next number and is on its way. -/
theorem Conserved.inject (h : Conserved codec raws queued s rounds lost) (raw : Bytes)
    (hseq : s'.updateSeq = s.updateSeq + 1)
    (hinflight : s'.inflight = s.inflight ++ (codec.withUpdateID raw (s.updateSeq + 1)).toList)
    (hqueue : s'.queue = s.queue) (hanswers : s'.answers = s.answers) :
    Conserved codec (raws ++ [raw]) queued s' rounds lost where
  seq := by rw [hseq, h.seq, List.length_append, List.length_singleton]
  accounted := by
    rw [numbered_concat, hinflight, h.seq]
    refine (h.accounted.append_right _).trans ?_
    rw [List.append_assoc, List.append_assoc]
    exact List.perm_append_comm.append_left _
  split := hqueue ▸ h.split
  handedOut := hanswers ▸ h.handedOut
  full := h.full
  fullQueue := hqueue ▸ h.fullQueue

/-- The update is the last one to enter; what it pushes out of the queue is lost. -/
theorem Conserved.enqueue (h : Conserved codec raws queued s rounds lost)
    (hle : s.queue.length ≤ maxQueuedUpdates) {i : ℕ} {out : Bytes}
    (hout : s.inflight[i]? = some out) (hseq : s'.updateSeq = s.updateSeq)
    (hinflight : s'.inflight = s.inflight.eraseIdx i)
    (hqueue : s'.queue = pushWindow maxQueuedUpdates s.queue out)
    (hanswers : s'.answers = s.answers) :
    ∃ lost', Conserved codec raws (queued ++ [out]) s' rounds lost' := by
  obtain ⟨hi, hget⟩ := List.getElem?_eq_some_iff.mp hout
  obtain ⟨dropped, hsplit, hfull⟩ := pushWindow_split (by decide) hle out
  refine ⟨lost ++ dropped, hseq.trans h.seq, ?_, ?_, hanswers ▸ h.handedOut, h.full, ?_⟩
  · rw [hinflight]
    refine h.accounted.trans ?_
    have hmoved : (s.inflight.eraseIdx i ++ [out]).Perm s.inflight := by
      rw [← hget]
      exact (List.perm_append_singleton _ _).trans (List.getElem_cons_eraseIdx_perm hi)
    refine (hmoved.symm.append_right queued).trans ?_
    rw [List.append_assoc]
    exact List.perm_append_comm.append_left _
  · rw [h.split, hqueue]
    simp only [List.append_assoc, hsplit]
  · intro hne
    rw [hqueue]
    by_cases hdropped : dropped = []
    · -- nothing was dropped now, so the queue was full before and has not grown
      subst hdropped
      rw [List.append_nil] at hne
      have hlen := congrArg List.length hsplit
      have hbound := length_pushWindow_le (by decide) hle out
      have hqueued := h.fullQueue hne
      simp only [List.length_append, List.length_singleton, List.nil_append] at hlen
      omega
    · exact hfull hdropped

/-- Taking the queue ends a round, unless there is nothing to take. -/
theorem Conserved.take (h : Conserved codec raws queued s rounds lost)
    (hseq : s'.updateSeq = s.updateSeq) (hinflight : s'.inflight = s.inflight)
    (hqueue : s'.queue = [])
    (hanswers : (s'.answers.filter fun us => us ≠ []).Perm
      ((s.answers.filter fun us => us ≠ []) ++ [s.queue].filter fun us => us ≠ [])) :
    ∃ rounds' lost', Conserved codec raws queued s' rounds' lost' := by
  by_cases hempty : s.queue = []
  · have hnone : ([s.queue].filter fun us => us ≠ []) = [] := by simp [hempty]
    rw [hnone, List.append_nil] at hanswers
    have hsame : s'.queue = s.queue := hqueue.trans hempty.symm
    exact ⟨rounds, lost, hseq.trans h.seq, hinflight ▸ h.accounted, hsame ▸ h.split,
      h.handedOut.trans hanswers.symm, h.full, hsame ▸ h.fullQueue⟩
  · have hone : ([s.queue].filter fun us => us ≠ []) = [s.queue] := by simp [hempty]
    rw [hone] at hanswers
    refine ⟨rounds ++ [⟨lost, s.queue⟩], [], hseq.trans h.seq, hinflight ▸ h.accounted, ?_, ?_, ?_,
      fun hne => absurd rfl hne⟩
    · rw [hqueue, h.split]
      simp
    · rw [List.map_append]
      exact (h.handedOut.append_right _).trans hanswers.symm
    · intro r hr hne
      rcases List.mem_append.mp hr with hold | hnew
      · exact h.full r hold hne
      · rw [List.mem_singleton] at hnew
        subst hnew
        exact h.fullQueue hne

/-- An answer that comes where there was none. -/
theorem filter_set_perm {α : Type*} {p : α → Bool} {l : List α} {i : ℕ} {x y : α}
    (hx : l[i]? = some x) (hp : p x = false) :
    ((l.set i y).filter p).Perm (l.filter p ++ [y].filter p) := by
  obtain ⟨hi, rfl⟩ := List.getElem?_eq_some_iff.mp hx
  have hsplit : l = l.take i ++ l[i] :: l.drop (i + 1) := by simp
  have hset : l.set i y = l.take i ++ y :: l.drop (i + 1) := by
    rw [List.set_eq_take_append_cons_drop, if_pos hi]
  rw [hset]
  conv_rhs => rw [hsplit]
  simp only [List.filter_append, List.filter_cons_of_neg (by simpa using hp), List.append_assoc]
  refine List.Perm.append_left _ ?_
  rw [← List.singleton_append, List.filter_append]
  exact List.perm_append_comm

theorem Conserved.step (h : Conserved codec raws queued s rounds lost) (hinv : ServerInv codec s)
    {a : Action} (heffect : ServerEffect codec s a s') :
    ∃ rounds' lost', Conserved codec (raws ++ a.injected.toList) (queued ++ queuedBy s a) s'
      rounds' lost' := by
  cases heffect with
  | quiet hinjected hqueued hseq hinflight hqueue hanswers =>
      rw [hinjected, hqueued, Option.toList_none, List.append_nil, List.append_nil]
      exact ⟨rounds, lost, h.quiet hseq hinflight hqueue hanswers⟩
  | injected raw ha hseq hinflight hqueue hanswers =>
      subst ha
      have hqueued : queuedBy s (.inject raw) = [] := rfl
      rw [hqueued, List.append_nil]
      exact ⟨rounds, lost, h.inject raw hseq hinflight hqueue hanswers⟩
  | queued i out ha hout hseq hinflight hqueue hanswers =>
      subst ha
      have hinjected : (Action.enqueue i).injected = none := rfl
      rw [queuedBy, hout, hinjected, Option.toList_none, List.append_nil, Option.toList_some]
      exact ⟨rounds, h.enqueue hinv.queue_le hout hseq hinflight hqueue hanswers⟩
  | taken hinjected hqueued hseq hinflight hqueue hanswers =>
      rw [hinjected, hqueued, Option.toList_none, List.append_nil, List.append_nil]
      refine h.take hseq hinflight hqueue ?_
      rcases hanswers with hnew | ⟨i, hwaited, hwoken⟩
      · rw [hnew, List.filter_append]
      · rw [hwoken]
        exact filter_set_perm hwaited (by simp)

end Account

/-- **No update is lost or handed out twice**, whatever polls come and go and however injections
overlap: the updates of a run are those on their way, those of the batches that were handed out,
those the full queue dropped and those still in it, and each batch is a stretch of updates that
entered the queue one after the other. -/
theorem updates_conserved {codec : Codec} {clock : Time} {as : List Action} {s : Server}
    (hrun : run (step codec) { clock := clock } as = some s) :
    ∃ rounds lost,
      Conserved codec (injectedTexts as) (queuedUpdates codec clock as) s rounds lost := by
  refine run_history (I := fun as s => ∃ rounds lost,
    Conserved codec (injectedTexts as) (queuedUpdates codec clock as) s rounds lost)
    ⟨[], [], rfl, List.Perm.refl _, rfl, List.Perm.refl _, by simp, fun hne => absurd rfl hne⟩ ?_
    hrun
  rintro as s₁ a s₂ hrun₁ ⟨rounds, lost, h⟩ hstep
  have htexts : injectedTexts (as ++ [a]) = injectedTexts as ++ a.injected.toList := by
    cases ha : a.injected <;> simp [injectedTexts, ha]
  rw [htexts, queuedUpdates, observe_concat queuedBy hrun₁]
  exact h.step (serverInv_of_run hrun₁) (serverEffect_step hstep)

/-- Two injections that overtake each other on the way to the queue, a poll that takes both, a
body of `null`, and a last update that is still on its way. -/
def overlapping : List Action :=
  [.inject (utf8 "\x7b\"a\":1\x7d"), .inject (utf8 "\x7b\x7d"), .enqueue 1, .enqueue 0,
    .request "" "getUpdates" (utf8 "\x7b\x7d"), .inject (utf8 "null"),
    .inject (utf8 "\x7b\"b\":2\x7d")]

theorem overlapping_conserved :
    ∃ s, run (step flatCodec) { clock := 0 } overlapping = some s ∧
      s.answers = [[utf8 "\x7b\"update_id\":2\x7d", utf8 "\x7b\"a\":1,\"update_id\":1\x7d"]] ∧
      s.inflight = [utf8 "\x7b\"b\":2,\"update_id\":4\x7d"] ∧ s.queue = [] ∧
      ∃ rounds lost, Conserved flatCodec (injectedTexts overlapping)
        (queuedUpdates flatCodec 0 overlapping) s rounds lost := by
  obtain ⟨s, hrun⟩ : ∃ s, run (step flatCodec) { clock := 0 } overlapping = some s :=
    Option.isSome_iff_exists.mp (by decide +kernel)
  have hlast : (run (step flatCodec) { clock := 0 } overlapping).map
      (fun s => (s.answers, s.inflight, s.queue)) =
      some ([[utf8 "\x7b\"update_id\":2\x7d", utf8 "\x7b\"a\":1,\"update_id\":1\x7d"]],
        [utf8 "\x7b\"b\":2,\"update_id\":4\x7d"], []) := by
    decide +kernel
  simp only [hrun, Option.map_some, Option.some.injEq, Prod.mk.injEq] at hlast
  exact ⟨s, hrun, hlast.1, hlast.2.1, hlast.2.2, updates_conserved hrun⟩

end TelegramServer.Mocktelegram
