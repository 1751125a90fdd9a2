import TelegramServer.Bot.Effects

/-!
Repeated passes of the topic provisioner. A pass makes a topic in Telegram and then
inserts its row, for one app after the other, and goes on past every failure; the
next pass takes up the apps that have no row.

The passes are followed for one app at a time. All that happens to an app is that a
pass makes a topic for it or not, and records the topic or not; a pass that finds the
row leaves the app alone. A topic that was made and not recorded is an orphan: nothing
refers to it, and the next pass makes another one.

A call that fails is taken to have done nothing: where `CreateForumTopic` answers with
an error there is no new topic in Telegram, and where the insert does there is no row.
-/

namespace TelegramServer.Bot

open Go Lib Registry

/-! ### What one pass does -/

/-- The topic of the app that a pass records: it is made and its row is inserted.
`refs` says whether the user and the app exist. -/
def BotEnv.recorded (env : BotEnv) (refs : String → Bool) (app : String) : Option ℤ :=
  if env.fails (.addTopic app) || !refs app then none else env.createForumTopic app

/-- The rows after a loop over `apps`. -/
def recordTopics (env : BotEnv) (userID : ℤ) (refs : String → Bool)
    (topics : Table UserTopic.key) (apps : List String) : Table UserTopic.key :=
  apps.foldl (fun topics app =>
    match env.recorded refs app with
    | some topicID => topics.insert ⟨userID, app, topicID⟩
    | none => topics) topics

/-- The topics Telegram made for an app in a chat. -/
def topicsMade (chatID : ℤ) (app : String) (calls : List BotCall) : List ℤ :=
  calls.filterMap fun
    | .createForumTopic chat name (some topicID) =>
        if chat = chatID ∧ name = app then some topicID else none
    | _ => none

section Pass

variable {env : BotEnv} {userID chatID : ℤ} {app : String} {w : World}

/-- One round of the loop: the call, and the row if the topic is recorded. -/
theorem run_ensureLoop_cons (app : String) (rest : List String) (w : World) :
    (ensureLoop env userID chatID (app :: rest)).run w =
      let calls := w.calls ++ [.createForumTopic chatID app (env.createForumTopic app)]
      match env.recorded (w.db.references userID) app with
      | none => (ensureLoop env userID chatID rest).run ⟨w.db, calls⟩
      | some topicID =>
          let r := (ensureLoop env userID chatID rest).run
            ⟨{ w.db with topics := w.db.topics.insert ⟨userID, app, topicID⟩ }, calls⟩
          (app :: r.1, r.2) := by
  rw [ensureLoop, run_bind, run_call]
  cases htopic : env.createForumTopic app with
  | none =>
      have hnone : env.recorded (w.db.references userID) app = none := by
        simp [BotEnv.recorded, htopic]
      rw [hnone]
  | some topicID =>
      dsimp only
      rw [run_bind, run_query]
      cases hfails : env.fails (.addTopic app) with
      | true =>
          have hnone : env.recorded (w.db.references userID) app = none := by
            simp [BotEnv.recorded, hfails]
          rw [hnone]
          rfl
      | false =>
          cases hrefs : w.db.references userID app with
          | false =>
              have hnone : env.recorded (w.db.references userID) app = none := by
                simp [BotEnv.recorded, hrefs]
              rw [hnone]
              simp [Database.addTopic, hrefs]
          | true =>
              have hsome : env.recorded (w.db.references userID) app = some topicID := by
                simp [BotEnv.recorded, hfails, hrefs, htopic]
              rw [hsome]
              simp only [Database.addTopic, hrefs, Bool.false_eq_true, if_false, if_true]
              rfl

theorem run_ensureLoop (apps : List String) (w : World) :
    (ensureLoop env userID chatID apps).run w =
      (apps.filter fun app => (env.recorded (w.db.references userID) app).isSome,
        { db := { w.db with
            topics := recordTopics env userID (w.db.references userID) w.db.topics apps }
          calls := w.calls ++
            apps.map fun app => .createForumTopic chatID app (env.createForumTopic app) }) := by
  induction apps generalizing w with
  | nil =>
      rw [ensureLoop, run_pure, List.map_nil, List.append_nil]
      rfl
  | cons app rest ih =>
      rw [run_ensureLoop_cons]
      -- the rows do not touch what `references` reads
      have hrefs (topics : Table UserTopic.key) :
          Database.references { w.db with topics := topics } userID = w.db.references userID := rfl
      cases hrec : env.recorded (w.db.references userID) app with
      | none =>
          dsimp only
          rw [ih]
          simp [recordTopics, hrec]
      | some topicID =>
          dsimp only
          rw [ih]
          simp [recordTopics, hrec, hrefs]

theorem run_ensureForSubscribedApps (w : World) :
    (ensureForSubscribedApps env userID chatID).run w =
      if env.fails .listMissingTopics then (.error .db, w)
      else
        let r := (ensureLoop env userID chatID (w.db.listSubscribedAppsWithoutTopic userID)).run w
        (.ok r.1, r.2) := by
  rw [ensureForSubscribedApps, run_bind, run_select]
  cases env.fails .listMissingTopics <;> rfl

theorem find?_recordTopics (refs : String → Bool) (topics : Table UserTopic.key)
    (apps : List String) (k : ℤ × String) :
    (recordTopics env userID refs topics apps).find? k =
      (topics.find? k).or
        (if k.1 = userID ∧ k.2 ∈ apps then (env.recorded refs k.2).map fun topicID =>
          ⟨userID, k.2, topicID⟩ else none) := by
  obtain ⟨user, name⟩ := k
  induction apps generalizing topics with
  | nil => simp [recordTopics]
  | cons app rest ih =>
      rw [recordTopics, List.foldl_cons, ← recordTopics, ih]
      cases hrec : env.recorded refs app with
      | none =>
          dsimp only
          congr 1
          by_cases hname : name = app
          · subst hname
            simp [hrec]
          · simp [hname]
      | some topicID =>
          dsimp only
          rw [Table.find?_insert, Option.or_assoc]
          congr 1
          by_cases hkey : user = userID ∧ name = app
          · obtain ⟨rfl, rfl⟩ := hkey
            simp [UserTopic.key, hrec]
          · have hne : ¬ (userID = user ∧ app = name) := fun h => hkey ⟨h.1.symm, h.2.symm⟩
            simp only [UserTopic.key, Prod.mk.injEq, hne, if_false, Option.none_or]
            by_cases huser : user = userID
            · have hname : name ≠ app := fun h => hkey ⟨huser, h⟩
              simp [huser, hname]
            · simp [huser]

theorem topicsMade_append (calls calls' : List BotCall) :
    topicsMade chatID app (calls ++ calls') =
      topicsMade chatID app calls ++ topicsMade chatID app calls' :=
  List.filterMap_append

/-- A list without repetitions has one call for each of its apps. -/
theorem topicsMade_map {apps : List String} (h : apps.Nodup) (f : String → Option ℤ) :
    topicsMade chatID app (apps.map fun app => .createForumTopic chatID app (f app)) =
      if app ∈ apps then (f app).toList else [] := by
  induction apps with
  | nil => rfl
  | cons name rest ih =>
      rw [List.nodup_cons] at h
      rw [List.map_cons, ← List.singleton_append, topicsMade_append, ih h.2]
      by_cases hname : name = app
      · subst hname
        cases f name <;> simp [topicsMade, h.1]
      · have hne : app ≠ name := fun heq => hname heq.symm
        cases f name <;> simp [topicsMade, hname, hne]

theorem nodup_listSubscribedAppsWithoutTopic (db : Database) (userID : ℤ) :
    (db.listSubscribedAppsWithoutTopic userID).Nodup := by
  have hjoin : leftJoin (fun (s : Subscription) t => t.userID = s.userID && t.appID = s.appID)
      db.subscriptions.rows db.topics.rows = _ :=
    leftJoin_table (fun s => some s.key) (by simp [UserTopic.key, Subscription.key]) _
  rw [Database.listSubscribedAppsWithoutTopic, (sortBy_perm _ _).nodup_iff, hjoin,
    List.filter_map, List.map_map]
  -- rows of one user differ in their app
  refine List.Nodup.map_on ?_ ((List.Nodup.of_map _ db.subscriptions.nodup).filter _)
  intro s hs t ht heq
  simp only [List.mem_filter, Function.comp_apply, Bool.and_eq_true, decide_eq_true_eq] at hs ht
  exact db.subscriptions.eq_of_key_eq hs.1 ht.1
    (Prod.ext (hs.2.1.trans ht.2.1.symm) heq)

end Pass

/-! ### One app -/

/-- What a sequence of passes has done for an app. -/
structure Track where
  made : List ℤ
  row : Option ℤ

def track (userID chatID : ℤ) (app : String) (w : World) : Track where
  made := topicsMade chatID app w.calls
  row := (w.db.topics.find? (userID, app)).map UserTopic.topicID

/-- One pass, for one app. -/
def Track.pass (env : BotEnv) (refs : String → Bool) (app : String) (t : Track) : Track :=
  match t.row with
  | some _ => t
  | none =>
      if env.fails .listMissingTopics then t
      else ⟨t.made ++ (env.createForumTopic app).toList, env.recorded refs app⟩

def Track.passes (refs : String → Bool) (app : String) (envs : List BotEnv) (t : Track) : Track :=
  envs.foldl (fun t env => t.pass env refs app) t

def ensureRuns (userID chatID : ℤ) (envs : List BotEnv) (w : World) : World :=
  envs.foldl (fun w env => ((ensureForSubscribedApps env userID chatID).run w).2) w

section Track

variable {userID chatID : ℤ} {app : String} {w : World}

/-- A pass touches nothing but topics. -/
theorem db_ensureForSubscribedApps (userID chatID : ℤ) (env : BotEnv) (w : World) :
    ∃ topics, ((ensureForSubscribedApps env userID chatID).run w).2.db =
      { w.db with topics := topics } := by
  rw [run_ensureForSubscribedApps]
  cases env.fails .listMissingTopics with
  | true => exact ⟨w.db.topics, rfl⟩
  | false =>
      rw [if_neg Bool.false_ne_true, run_ensureLoop]
      exact ⟨_, rfl⟩

/-- A pass over all apps is, for each subscribed app, a pass over that app. -/
theorem track_ensureForSubscribedApps (env : BotEnv)
    (hsub : ∃ s ∈ w.db.subscriptions.rows, s.key = (userID, app)) :
    track userID chatID app ((ensureForSubscribedApps env userID chatID).run w).2 =
      (track userID chatID app w).pass env (w.db.references userID) app := by
  have hlisted : app ∈ w.db.listSubscribedAppsWithoutTopic userID ↔
      w.db.topics.find? (userID, app) = none := by
    rw [mem_listSubscribedAppsWithoutTopic, ← Option.not_isSome_iff_eq_none, Table.isSome_find?]
    exact and_iff_right hsub
  rw [run_ensureForSubscribedApps]
  cases hlist : env.fails .listMissingTopics with
  | true =>
      rw [if_pos rfl]
      unfold Track.pass
      split <;> simp [hlist]
  | false =>
      rw [if_neg Bool.false_ne_true, run_ensureLoop]
      simp only [track, Track.pass, topicsMade_append,
        topicsMade_map (nodup_listSubscribedAppsWithoutTopic w.db userID), find?_recordTopics,
        hlisted, true_and, hlist, Bool.false_eq_true, if_false]
      cases hrow : w.db.topics.find? (userID, app) with
      | some t => simp
      | none => simp [Function.comp_def]

theorem ensureRuns_concat (envs : List BotEnv) (env : BotEnv) :
    ensureRuns userID chatID (envs ++ [env]) w =
      ((ensureForSubscribedApps env userID chatID).run (ensureRuns userID chatID envs w)).2 := by
  rw [ensureRuns, List.foldl_append]
  rfl

theorem db_ensureRuns (userID chatID : ℤ) (envs : List BotEnv) (w : World) :
    ∃ topics, (ensureRuns userID chatID envs w).db = { w.db with topics := topics } := by
  induction envs using List.reverseRecOn with
  | nil => exact ⟨w.db.topics, rfl⟩
  | append_singleton envs env ih =>
      obtain ⟨topics, htopics⟩ := ih
      obtain ⟨topics', htopics'⟩ := db_ensureForSubscribedApps userID chatID env
        (ensureRuns userID chatID envs w)
      rw [ensureRuns_concat, htopics', htopics]
      exact ⟨topics', rfl⟩

theorem track_ensureRuns (envs : List BotEnv)
    (hsub : ∃ s ∈ w.db.subscriptions.rows, s.key = (userID, app)) :
    track userID chatID app (ensureRuns userID chatID envs w) =
      (track userID chatID app w).passes (w.db.references userID) app envs := by
  induction envs using List.reverseRecOn with
  | nil => rfl
  | append_singleton envs env ih =>
      obtain ⟨topics, htopics⟩ := db_ensureRuns userID chatID envs w
      have hsub' : ∃ s ∈ (ensureRuns userID chatID envs w).db.subscriptions.rows,
          s.key = (userID, app) := by
        rw [htopics]
        exact hsub
      have hrefs : (ensureRuns userID chatID envs w).db.references userID =
          w.db.references userID := by
        rw [htopics]
        rfl
      rw [ensureRuns_concat, track_ensureForSubscribedApps env hsub', hrefs, ih, Track.passes,
        Track.passes, List.foldl_append]
      rfl

end Track

/-! ### Orphans -/

/-- The pass makes a topic for the app and records it. -/
def BotEnv.Records (env : BotEnv) (refs : String → Bool) (app : String) : Prop :=
  env.fails .listMissingTopics = false ∧ env.recorded refs app ≠ none

/-- The pass makes a topic for the app and fails to record it. -/
def BotEnv.Orphans (env : BotEnv) (refs : String → Bool) (app : String) : Prop :=
  env.fails .listMissingTopics = false ∧ env.createForumTopic app ≠ none ∧
    env.recorded refs app = none

/-- No pass before the one that records the app's topic makes an orphan. -/
def Spared (refs : String → Bool) (app : String) : List BotEnv → Prop
  | [] => True
  | env :: envs =>
      ¬ env.Orphans refs app ∧ (¬ env.Records refs app → Spared refs app envs)

section Orphans

variable {refs : String → Bool} {app : String}

theorem passes_of_row (envs : List BotEnv) (made : List ℤ) (topicID : ℤ) :
    (⟨made, some topicID⟩ : Track).passes refs app envs = ⟨made, some topicID⟩ := by
  induction envs with
  | nil => rfl
  | cons env envs ih => exact ih

/-- A pass that makes no topic. -/
theorem pass_of_idle (refs : String → Bool) {env : BotEnv} (made : List ℤ)
    (h : env.fails .listMissingTopics = true ∨ env.createForumTopic app = none) :
    (⟨made, none⟩ : Track).pass env refs app = ⟨made, none⟩ ∧
      ¬ env.Orphans refs app ∧ ¬ env.Records refs app := by
  rcases h with hlist | htopic
  · simp [Track.pass, BotEnv.Orphans, BotEnv.Records, hlist]
  · simp [Track.pass, BotEnv.Orphans, BotEnv.Records, BotEnv.recorded, htopic]

theorem recorded_eq {env : BotEnv} {topicID recordedID : ℤ}
    (htopic : env.createForumTopic app = some topicID)
    (hrec : env.recorded refs app = some recordedID) : recordedID = topicID := by
  unfold BotEnv.recorded at hrec
  split at hrec
  · cases hrec
  · exact Option.some.inj (hrec.symm.trans htopic)

/-- The topics made for an app that had none are the orphans and the one that is
recorded. -/
theorem made_passes (refs : String → Bool) (app : String) (envs : List BotEnv) (made : List ℤ) :
    ∃ orphans, ((⟨made, none⟩ : Track).passes refs app envs).made =
        made ++ orphans ++ ((⟨made, none⟩ : Track).passes refs app envs).row.toList ∧
      (orphans = [] ↔ Spared refs app envs) := by
  induction envs generalizing made with
  | nil => exact ⟨[], by simp [Track.passes], iff_of_true rfl trivial⟩
  | cons env envs ih =>
      rw [Track.passes, List.foldl_cons, ← Track.passes]
      by_cases hidle : env.fails .listMissingTopics = true ∨ env.createForumTopic app = none
      · obtain ⟨hpass, horphans, hrecords⟩ := pass_of_idle refs made hidle
        obtain ⟨orphans, hmade, hspared⟩ := ih made
        rw [hpass]
        refine ⟨orphans, hmade, hspared.trans ?_⟩
        simp [Spared, horphans, hrecords]
      · obtain ⟨hlist, hsome⟩ := not_or.mp hidle
        obtain ⟨topicID, htopic⟩ := Option.ne_none_iff_exists'.mp hsome
        have hlist : env.fails .listMissingTopics = false := Bool.eq_false_iff.mpr hlist
        have hpass : (⟨made, none⟩ : Track).pass env refs app =
            ⟨made ++ [topicID], env.recorded refs app⟩ := by
          simp [Track.pass, hlist, htopic]
        rw [hpass]
        cases hrec : env.recorded refs app with
        | none =>
            -- an orphan, and the next passes go on without a row
            obtain ⟨orphans, hmade, -⟩ := ih (made ++ [topicID])
            refine ⟨topicID :: orphans, by simpa using hmade, iff_of_false (by simp) ?_⟩
            exact fun hspared => hspared.1 ⟨hlist, hsome, hrec⟩
        | some recordedID =>
            refine ⟨[], ?_, iff_of_true rfl ⟨?_, ?_⟩⟩
            · rw [passes_of_row, recorded_eq htopic hrec]
              simp
            · exact fun horphan => absurd (horphan.2.2.symm.trans hrec) (by simp)
            · exact fun hnot => absurd ⟨hlist, by simp [hrec]⟩ hnot

end Orphans

/-! ### Until a pass in which nothing fails -/

structure NothingFails (env : BotEnv) (userID : ℤ) (db : Database) : Prop where
  listed : env.fails .listMissingTopics = false
  created : ∀ app ∈ db.listSubscribedAppsWithoutTopic userID, env.createForumTopic app ≠ none
  inserted : ∀ app ∈ db.listSubscribedAppsWithoutTopic userID,
    env.fails (.addTopic app) = false ∧ db.references userID app = true

/-- What the passes should come to: one topic for each app that had none, known under
its id; every row that was there; and nothing left to do. -/
structure Provisioned (userID chatID : ℤ) (db : Database) (w : World) : Prop where
  one_topic : ∀ app ∈ db.listSubscribedAppsWithoutTopic userID, ∃ topicID,
    topicsMade chatID app w.calls = [topicID] ∧
      w.db.topics.find? (userID, app) = some ⟨userID, app, topicID⟩
  kept : ∀ k t, db.topics.find? k = some t → w.db.topics.find? k = some t
  quiet : ∀ env, ((ensureForSubscribedApps env userID chatID).run w).2 = w ∧
    (env.fails .listMissingTopics = false →
      ((ensureForSubscribedApps env userID chatID).run w).1 = .ok [])

section Provisioned

variable {userID chatID : ℤ} {w : World}

theorem find?_ensureRuns (userID chatID : ℤ) (envs : List BotEnv) {w : World} {k : ℤ × String}
    {t : UserTopic} (h : w.db.topics.find? k = some t) :
    (ensureRuns userID chatID envs w).db.topics.find? k = some t := by
  induction envs using List.reverseRecOn with
  | nil => exact h
  | append_singleton envs env ih =>
      rw [ensureRuns_concat, run_ensureForSubscribedApps]
      split
      · exact ih
      · rw [run_ensureLoop]
        dsimp only
        rw [find?_recordTopics, ih, Option.some_or]

theorem pass_of_records {env : BotEnv} {refs : String → Bool} {app : String} {t : Track}
    {orphans : List ℤ} (hmade : t.made = orphans ++ t.row.toList)
    (h : t.row = none → env.Records refs app) :
    ∃ topicID, t.pass env refs app = ⟨orphans ++ [topicID], some topicID⟩ := by
  obtain ⟨made, row⟩ := t
  dsimp only at hmade h
  subst hmade
  cases row with
  | some topicID => exact ⟨topicID, rfl⟩
  | none =>
      obtain ⟨hlist, hrec⟩ := h rfl
      obtain ⟨topicID, hrec⟩ := Option.ne_none_iff_exists'.mp hrec
      have htopic : env.createForumTopic app = some topicID := by
        unfold BotEnv.recorded at hrec
        split at hrec
        · cases hrec
        · exact hrec
      exact ⟨topicID, by simp [Track.pass, hlist, htopic, hrec]⟩

/-- In a pass in which nothing fails, every subscribed app without a row gets one. -/
theorem NothingFails.records {env : BotEnv} (hclean : NothingFails env userID w.db)
    {app : String} (hsub : ∃ s ∈ w.db.subscriptions.rows, s.key = (userID, app))
    (hrow : (track userID chatID app w).row = none) :
    env.Records (w.db.references userID) app := by
  have hmissing : app ∈ w.db.listSubscribedAppsWithoutTopic userID := by
    rw [track, Option.map_eq_none_iff] at hrow
    rw [mem_listSubscribedAppsWithoutTopic, ← Table.isSome_find?, hrow]
    exact ⟨hsub, by simp⟩
  obtain ⟨hadd, hrefs⟩ := hclean.inserted app hmissing
  refine ⟨hclean.listed, ?_⟩
  simpa [BotEnv.recorded, hadd, hrefs] using hclean.created app hmissing

/-- The end of all passes, for a subscribed app. -/
theorem track_of_nothingFails {envs : List BotEnv} {last : BotEnv}
    (hclean : NothingFails last userID (ensureRuns userID chatID envs w).db) {app : String}
    (hsub : ∃ s ∈ w.db.subscriptions.rows, s.key = (userID, app)) {orphans : List ℤ}
    (hmade : ((track userID chatID app w).passes (w.db.references userID) app envs).made =
      orphans ++
        ((track userID chatID app w).passes (w.db.references userID) app envs).row.toList) :
    ∃ topicID, track userID chatID app (ensureRuns userID chatID (envs ++ [last]) w) =
      ⟨orphans ++ [topicID], some topicID⟩ := by
  obtain ⟨topics, htopics⟩ := db_ensureRuns userID chatID envs w
  have hsub' : ∃ s ∈ (ensureRuns userID chatID envs w).db.subscriptions.rows,
      s.key = (userID, app) := by
    rw [htopics]
    exact hsub
  rw [← track_ensureRuns envs hsub] at hmade
  rw [ensureRuns_concat, track_ensureForSubscribedApps last hsub']
  exact pass_of_records hmade fun hrow => hclean.records hsub' hrow

theorem topic_of_track {app : String} {made : List ℤ} {topicID : ℤ}
    (h : track userID chatID app w = ⟨made, some topicID⟩) :
    topicsMade chatID app w.calls = made ∧
      w.db.topics.find? (userID, app) = some ⟨userID, app, topicID⟩ := by
  obtain ⟨hmade, hrow⟩ := Track.mk.inj h
  obtain ⟨t, ht, hid⟩ := Option.map_eq_some_iff.mp hrow
  obtain ⟨-, hkey⟩ := Table.find?_eq_some.mp ht
  obtain ⟨huser, happ⟩ := Prod.mk.inj hkey
  refine ⟨hmade, ht.trans (congrArg some ?_)⟩
  obtain ⟨user, name, id⟩ := t
  subst huser happ hid
  rfl

/-- Without a subscribed app that has no row, a pass does nothing. -/
theorem run_of_nothing_missing (env : BotEnv)
    (h : ∀ app, (∃ s ∈ w.db.subscriptions.rows, s.key = (userID, app)) →
      w.db.topics.find? (userID, app) ≠ none) :
    ((ensureForSubscribedApps env userID chatID).run w).2 = w ∧
      (env.fails .listMissingTopics = false →
        ((ensureForSubscribedApps env userID chatID).run w).1 = .ok []) := by
  have hnil : w.db.listSubscribedAppsWithoutTopic userID = [] := by
    rw [List.eq_nil_iff_forall_not_mem]
    intro app hmem
    obtain ⟨hsub, hnone⟩ := mem_listSubscribedAppsWithoutTopic.mp hmem
    rw [← Table.isSome_find?, Option.not_isSome_iff_eq_none] at hnone
    exact h app hsub hnone
  rw [run_ensureForSubscribedApps, hnil]
  cases env.fails .listMissingTopics with
  | true => exact ⟨rfl, fun hlist => Bool.noConfusion hlist⟩
  | false => exact ⟨rfl, fun _ => rfl⟩

/-- Passes that end with one in which nothing fails do their work exactly where no
app's topic was orphaned before it was recorded. -/
theorem provisioned_iff (userID chatID : ℤ) (db : Database) (envs : List BotEnv) (last : BotEnv)
    (hclean : NothingFails last userID (ensureRuns userID chatID envs ⟨db, []⟩).db) :
    Provisioned userID chatID db (ensureRuns userID chatID (envs ++ [last]) ⟨db, []⟩) ↔
      ∀ app ∈ db.listSubscribedAppsWithoutTopic userID,
        Spared (db.references userID) app envs := by
  -- an app that had no topic has its orphans and one topic in the end
  have hmissing (app : String) (happ : app ∈ db.listSubscribedAppsWithoutTopic userID) :
      ∃ orphans topicID, track userID chatID app
          (ensureRuns userID chatID (envs ++ [last]) ⟨db, []⟩) =
            ⟨orphans ++ [topicID], some topicID⟩ ∧
        (orphans = [] ↔ Spared (db.references userID) app envs) := by
    obtain ⟨hsub, hnone⟩ := mem_listSubscribedAppsWithoutTopic.mp happ
    rw [← Table.isSome_find?, Option.not_isSome_iff_eq_none] at hnone
    have hstart : track userID chatID app ⟨db, []⟩ = ⟨[], none⟩ := by
      simp [track, topicsMade, hnone]
    obtain ⟨orphans, hmade, hspared⟩ := made_passes (db.references userID) app envs []
    rw [← hstart, List.nil_append] at hmade
    obtain ⟨topicID, hend⟩ := track_of_nothingFails hclean hsub hmade
    exact ⟨orphans, topicID, hend, hspared⟩
  constructor
  · intro hprov app happ
    obtain ⟨orphans, topicID, hend, hspared⟩ := hmissing app happ
    obtain ⟨hmade, -⟩ := topic_of_track hend
    obtain ⟨id, hone, -⟩ := hprov.one_topic app happ
    rw [← hspared]
    have hlen := congrArg List.length (hmade.symm.trans hone)
    rw [List.length_append] at hlen
    exact List.eq_nil_of_length_eq_zero (by simpa using hlen)
  · intro hspared
    refine ⟨fun app happ => ?_, fun k t ht => find?_ensureRuns userID chatID _ ht, fun env => ?_⟩
    · obtain ⟨orphans, topicID, hend, hiff⟩ := hmissing app happ
      rw [hiff.mpr (hspared app happ)] at hend
      exact ⟨topicID, topic_of_track hend⟩
    · apply run_of_nothing_missing
      intro app hsub
      obtain ⟨topics, htopics⟩ := db_ensureRuns userID chatID (envs ++ [last]) ⟨db, []⟩
      rw [htopics] at hsub
      by_cases happ : app ∈ db.listSubscribedAppsWithoutTopic userID
      · obtain ⟨orphans, topicID, hend, -⟩ := hmissing app happ
        rw [(topic_of_track hend).2]
        simp
      · rw [mem_listSubscribedAppsWithoutTopic, not_and_not_right] at happ
        obtain ⟨t, ht⟩ := Option.isSome_iff_exists.mp (Table.isSome_find?.mpr (happ hsub))
        have hkept : (ensureRuns userID chatID (envs ++ [last]) ⟨db, []⟩).db.topics.find?
            (userID, app) = some t := find?_ensureRuns userID chatID _ ht
        rw [hkept]
        simp

end Provisioned

/-- A user with one subscription and no topic. -/
def newsReader : Database where
  users := ⟨[{ id := 4, telegramID := 44 }], List.nodup_singleton _⟩
  telegramID_nodup := List.nodup_singleton _
  userSeq := 4
  subscriptions := ⟨[⟨4, "news"⟩], List.nodup_singleton _⟩
  topics := .empty
  tokens := .empty
  apps := ⟨[{ id := "news", name := "Daily news" }], List.nodup_singleton _⟩

/-- A pass in which Telegram refuses every topic. -/
def refusesTopics : BotEnv := {}

/-- A pass in which Telegram makes the topic `topicID` and nothing fails. -/
def makesTopic (topicID : ℤ) : BotEnv := { createForumTopic := fun _ => some topicID }

/-- A pass in which Telegram makes the topic `topicID` and the insert fails. -/
def losesTopic (topicID : ℤ) : BotEnv :=
  { makesTopic topicID with
    fails := fun
      | .addTopic _ => true
      | _ => false }

/-- Telegram refuses the topic once and makes it at the second try. -/
theorem newsReader_provisioned :
    Provisioned 4 (-100) newsReader
      (ensureRuns 4 (-100) ([refusesTopics] ++ [makesTopic 8]) ⟨newsReader, []⟩) :=
  (provisioned_iff 4 (-100) newsReader [refusesTopics] (makesTopic 8)
    ⟨rfl, by decide +kernel, by decide +kernel⟩).mpr
    fun _ _ => ⟨fun h => h.2.1 rfl, fun _ => trivial⟩

/-- The insert fails once, and the second pass, in which nothing fails, makes a second
topic for the app. -/
theorem newsReader_two_topics :
    NothingFails (makesTopic 8) 4 (ensureRuns 4 (-100) [losesTopic 7] ⟨newsReader, []⟩).db ∧
      topicsMade (-100) "news"
        (ensureRuns 4 (-100) ([losesTopic 7] ++ [makesTopic 8]) ⟨newsReader, []⟩).calls = [7, 8] ∧
      ¬ Provisioned 4 (-100) newsReader
        (ensureRuns 4 (-100) ([losesTopic 7] ++ [makesTopic 8]) ⟨newsReader, []⟩) := by
  have hmade : topicsMade (-100) "news"
      (ensureRuns 4 (-100) ([losesTopic 7] ++ [makesTopic 8]) ⟨newsReader, []⟩).calls = [7, 8] := by
    decide +kernel
  refine ⟨⟨rfl, by decide +kernel, by decide +kernel⟩, hmade, fun hprov => ?_⟩
  obtain ⟨topicID, hone, -⟩ := hprov.one_topic "news" (by decide +kernel)
  rw [hmade] at hone
  cases hone

end TelegramServer.Bot
