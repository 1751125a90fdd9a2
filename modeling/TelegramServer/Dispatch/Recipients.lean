import TelegramServer.Dispatch.Resolvers

/-!
Who becomes a recipient. For each of the four resolvers there is one theorem that
characterises its recipients by the rows of the registry, whatever order the
query returns its rows in. The two loops are treated once; what is left of a
resolver is its query and the checks on a row.
-/

namespace TelegramServer.Dispatch

open Go Lib Registry

/-! ### The loops -/

theorem mem_recipients_add {res : ResolveResult} {v : RowVerdict} {rh : RecipientHandle} :
    rh ∈ (res.add v).recipients ↔ rh ∈ res.recipients ∨ v = .ok rh := by
  cases v with
  | error e => simp [ResolveResult.add]
  | ok rh' => simp [ResolveResult.add, eq_comm]

theorem mem_foldl_add {α : Type} {verdict : α → RowVerdict} {rows : List α} {res : ResolveResult}
    {rh : RecipientHandle} :
    rh ∈ (rows.foldl (fun res row => res.add (verdict row)) res).recipients ↔
      rh ∈ res.recipients ∨ ∃ row ∈ rows, verdict row = .ok rh := by
  induction rows generalizing res with
  | nil => simp
  | cons row rows ih =>
      rw [List.foldl_cons, ih, mem_recipients_add, or_assoc]
      simp

/-- Rows for the same user have the same verdict. -/
def Consistent (cs : List Candidate) : Prop :=
  ∀ c ∈ cs, ∀ c' ∈ cs, ∀ userID, c.userID = some userID → c'.userID = some userID →
    c.verdict = c'.verdict

/-- Dropping repeated rows of a user loses nothing if they all say the same. -/
theorem mem_candidateLoop {cs : List Candidate} (hcs : Consistent cs) {seen : List ℤ}
    {res : ResolveResult} {rh : RecipientHandle} :
    rh ∈ (candidateLoop cs seen res).recipients ↔
      rh ∈ res.recipients ∨
        ∃ c ∈ cs, ∃ userID, c.userID = some userID ∧ userID ∉ seen ∧ c.verdict = .ok rh := by
  induction cs generalizing seen res with
  | nil => simp [candidateLoop]
  | cons c cs ih =>
      have hrest : Consistent cs := fun a ha b hb => hcs a (by simp [ha]) b (by simp [hb])
      rw [candidateLoop]
      cases huser : c.userID with
      | none =>
          rw [ih hrest, mem_recipients_add]
          simp [huser]
      | some userID =>
          by_cases hseen : userID ∈ seen
          · simp only [hseen, if_true]
            rw [ih hrest]
            simp [huser, hseen]
          · simp only [hseen, if_false]
            rw [ih hrest, mem_recipients_add, or_assoc]
            refine or_congr_right ?_
            constructor
            · rintro (hok | ⟨c', hc', userID', huser', hunseen, hok⟩)
              · exact ⟨c, by simp, userID, huser, hseen, hok⟩
              · exact ⟨c', by simp [hc'], userID', huser', fun h => hunseen (by simp [h]), hok⟩
            · rintro ⟨c', hc', userID', huser', hunseen, hok⟩
              rcases List.mem_cons.mp hc' with rfl | hc'
              · exact .inl hok
              · -- a later row of the same user was already decided by `c`
                by_cases hsame : userID' = userID
                · subst hsame
                  refine .inl ?_
                  rw [hcs c (by simp) c' (by simp [hc']) userID' huser huser']
                  exact hok
                · exact .inr ⟨c', hc', userID', huser', by simp [hsame, hunseen], hok⟩

/-- The loop over candidates that stand for the users with `p`. -/
theorem mem_candidateLoop_users {db : Database} {p : UserRow → Prop}
    {verdict : UserRow → RowVerdict} {cs : List Candidate}
    (hcs : ∀ userID v, (∃ c ∈ cs, c.userID = some userID ∧ c.verdict = v) ↔
      ∃ u ∈ db.users.rows, p u ∧ u.id = userID ∧ verdict u = v) {rh : RecipientHandle} :
    rh ∈ (candidateLoop cs [] {}).recipients ↔
      ∃ u ∈ db.users.rows, p u ∧ verdict u = .ok rh := by
  have hconsistent : Consistent cs := by
    intro c hc c' hc' userID huser huser'
    obtain ⟨u, hu, -, hid, hv⟩ := (hcs userID c.verdict).mp ⟨c, hc, huser, rfl⟩
    obtain ⟨u', hu', -, hid', hv'⟩ := (hcs userID c'.verdict).mp ⟨c', hc', huser', rfl⟩
    obtain rfl := db.users.eq_of_key_eq hu hu' (hid.trans hid'.symm)
    rw [← hv, ← hv']
  rw [mem_candidateLoop hconsistent]
  constructor
  · rintro (hnone | ⟨c, hc, userID, huser, -, hok⟩)
    · cases hnone
    · obtain ⟨u, hu, hp, -, hv⟩ := (hcs userID (.ok rh)).mp ⟨c, hc, huser, hok⟩
      exact ⟨u, hu, hp, hv⟩
  · rintro ⟨u, hu, hp, hv⟩
    obtain ⟨c, hc, huser, hok⟩ := (hcs u.id (.ok rh)).mpr ⟨u, hu, hp, rfl, hv⟩
    exact .inr ⟨c, hc, u.id, huser, by simp, hok⟩

/-! ### Direct messages to a topic -/

/-- `rh` leads to the topic of an app in the supergroup of a user who may get
messages there. -/
structure InTopic (db : Database) (appID : String) (u : UserRow) (rh : RecipientHandle) :
    Prop where
  active : u.status = .active
  subscribed : (⟨u.id, appID⟩ : Subscription) ∈ db.subscriptions.rows
  linked : u.personalSupergroupChatID = some rh.chatID
  admin : u.botIsAdmin = true
  topic : (⟨u.id, appID, rh.topicID⟩ : UserTopic) ∈ db.topics.rows
  user : rh.userID = u.id
  channel : rh.channel = "supergroup"

/-- The row `directQuery` returns for a user. -/
def directRowOf (db : Database) (appID : String) (u : UserRow) : DirectRow where
  userID := some u.id
  status := some u.status
  personalChatID := u.personalSupergroupChatID
  botIsAdmin := some u.botIsAdmin
  subscribed := (db.subscriptions.find? (u.id, appID)).isSome
  topicID := (db.topics.find? (u.id, appID)).map UserTopic.topicID

/-- The row `directQuery` returns for one requested id. -/
def directRowFor (db : Database) (appID : String) (req : ℤ) : DirectRow :=
  match db.users.find? req with
  | some u => directRowOf db appID u
  | none => ⟨none, none, none, none, false, none⟩

/-- Every join of `directQuery` is on the key of its right table, so there is one
row for each requested id, and the index of the loop stays in range. -/
theorem directQuery_eq (db : Database) (userIDs : List ℤ) (appID : String) :
    directQuery db userIDs appID = userIDs.map (directRowFor db appID) := by
  simp only [directQuery]
  rw [leftJoin_table (fun req => some req) (fun req u => by simp),
    leftJoin_table (fun p => p.1.2.map fun u => (u.id, appID))
      (fun p t => by cases p.1.2 <;> simp [UserTopic.key]),
    leftJoin_table (fun p => p.2.map fun u => (u.id, appID))
      (fun p s => by cases p.2 <;> simp [Subscription.key]),
    List.map_map, List.map_map, List.map_map]
  refine List.map_congr_left fun req _ => ?_
  unfold directRowFor
  cases hfind : db.users.find? req <;> simp [directRowOf, hfind]

theorem find?_subscription {db : Database} {userID : ℤ} {appID : String} :
    (db.subscriptions.find? (userID, appID)).isSome ↔
      (⟨userID, appID⟩ : Subscription) ∈ db.subscriptions.rows := by
  rw [Option.isSome_iff_exists]
  constructor
  · rintro ⟨⟨user, app⟩, hfind⟩
    obtain ⟨hmem, hkey⟩ := Table.find?_eq_some.mp hfind
    obtain ⟨rfl, rfl⟩ : user = userID ∧ app = appID := by simpa [Subscription.key] using hkey
    exact hmem
  · intro hmem
    exact ⟨_, Table.find?_eq_some.mpr ⟨hmem, rfl⟩⟩

theorem find?_topic {db : Database} {userID topicID : ℤ} {appID : String} :
    (db.topics.find? (userID, appID)).map UserTopic.topicID = some topicID ↔
      (⟨userID, appID, topicID⟩ : UserTopic) ∈ db.topics.rows := by
  rw [Option.map_eq_some_iff]
  constructor
  · rintro ⟨⟨user, app, topic⟩, hfind, rfl⟩
    obtain ⟨hmem, hkey⟩ := Table.find?_eq_some.mp hfind
    obtain ⟨rfl, rfl⟩ : user = userID ∧ app = appID := by simpa [UserTopic.key] using hkey
    exact hmem
  · intro hmem
    exact ⟨_, Table.find?_eq_some.mpr ⟨hmem, rfl⟩, rfl⟩

theorem directRowOf_verdict {db : Database} {appID : String} {u : UserRow} {rh : RecipientHandle} :
    (directRowOf db appID u).verdict u.id = .ok rh ↔ InTopic db appID u rh := by
  constructor
  · intro h
    unfold DirectRow.verdict at h
    split at h
    · cases h
    · rename_i hactive
      split at h
      · cases h
      · rename_i hsub
        split at h
        · cases h
        · rename_i chatID hchat
          split at h
          · cases h
          · rename_i hadmin
            split at h
            · cases h
            · rename_i topicID htopic
              cases h
              refine ⟨?_, ?_, hchat, ?_, find?_topic.mp htopic, rfl, rfl⟩
              · simpa [directRowOf] using hactive
              · exact find?_subscription.mp
                  (Option.isSome_iff_ne_none.mpr (by simpa [directRowOf] using hsub))
              · simpa [directRowOf] using hadmin
  · rintro ⟨hactive, hsub, hlinked, hadmin, htopic, huser, hchannel⟩
    obtain ⟨userID, chatID, topicID, channel⟩ := rh
    obtain rfl : userID = u.id := huser
    obtain rfl : channel = "supergroup" := hchannel
    have hsub' := find?_subscription.mpr hsub
    have htopic' := find?_topic.mpr htopic
    simp [DirectRow.verdict, directRowOf, hactive, hsub', hlinked, hadmin, htopic']

/-- As long as there are requested ids left, every row becomes a candidate. -/
theorem exists_directCandidates (userIDs : List ℤ) (idx : ℕ) (rows : List DirectRow)
    (hlen : idx + rows.length ≤ userIDs.length) :
    ∃ cs, directCandidates userIDs idx rows = some cs ∧
      cs.map (fun c => (c.userID, c.verdict)) =
        rows.map fun row => (row.userID, row.verdict (row.userID.getD 0)) := by
  induction rows generalizing idx with
  | nil => exact ⟨[], rfl, rfl⟩
  | cons row rows ih =>
      rw [List.length_cons] at hlen
      obtain ⟨cs, hcs, hmap⟩ := ih (idx + 1) (by omega)
      have hget : userIDs[idx]? = some userIDs[idx] := List.getElem?_eq_getElem (by omega)
      exact ⟨_, by rw [directCandidates, hget, hcs]; rfl, by simp [hmap]⟩

/-- **`ResolveDirect`** never runs out of its index, and its recipients are the
requested users who may get messages in the app's topic. -/
theorem resolveDirect_spec (db : Database) (planner : Planner) (userIDs : List ℤ)
    {appID : String} (happ : appActive db appID = true) :
    ∃ res, resolveDirect db planner userIDs appID = .ok res ∧
      ∀ rh, rh ∈ res.recipients ↔
        ∃ u ∈ db.users.rows, u.id ∈ userIDs ∧ InTopic db appID u rh := by
  have hperm := planner.perm (directQuery db userIDs appID)
  obtain ⟨cs, hcs, hmap⟩ := exists_directCandidates userIDs 0
    (planner.arrange (directQuery db userIDs appID))
    (by rw [hperm.length_eq, directQuery_eq, List.length_map, Nat.zero_add])
  refine ⟨candidateLoop cs [] {}, by simp [resolveDirect, happ, hcs], fun rh => ?_⟩
  simp only [← directRowOf_verdict]
  refine mem_candidateLoop_users fun userID v => ?_
  have hpair : (∃ c ∈ cs, c.userID = some userID ∧ c.verdict = v) ↔
      (some userID, v) ∈ cs.map fun c => (c.userID, c.verdict) := by
    simp
  rw [hpair, hmap, List.mem_map]
  constructor
  · rintro ⟨row, hrow, heq⟩
    rw [hperm.mem_iff, directQuery_eq] at hrow
    obtain ⟨req, hreq, rfl⟩ := List.mem_map.mp hrow
    unfold directRowFor at heq
    cases hfind : db.users.find? req with
    | none => simp [hfind] at heq
    | some u =>
        obtain ⟨hu, rfl⟩ := Table.find?_eq_some.mp hfind
        obtain ⟨rfl, rfl⟩ : u.id = userID ∧ (directRowOf db appID u).verdict u.id = v := by
          simpa [hfind, directRowOf] using heq
        exact ⟨u, hu, hreq, rfl, rfl⟩
  · rintro ⟨u, hu, hreq, rfl, rfl⟩
    refine ⟨directRowOf db appID u, ?_, rfl⟩
    rw [hperm.mem_iff, directQuery_eq]
    refine List.mem_map.mpr ⟨u.id, hreq, ?_⟩
    simp [directRowFor, Table.find?_eq_some.mpr ⟨hu, rfl⟩]

theorem mem_resolveDirect {db : Database} {planner : Planner} {userIDs : List ℤ} {appID : String}
    {res : ResolveResult} (hres : resolveDirect db planner userIDs appID = .ok res)
    {rh : RecipientHandle} :
    rh ∈ res.recipients ↔ ∃ u ∈ db.users.rows, u.id ∈ userIDs ∧ InTopic db appID u rh := by
  cases happ : appActive db appID with
  | false => simp [resolveDirect, happ] at hres
  | true =>
      obtain ⟨res', hres', hspec⟩ := resolveDirect_spec db planner userIDs happ
      obtain rfl := Except.ok.inj (hres.symm.trans hres')
      exact hspec rh

/-! ### Messages to the subscribers of an app -/

/-- The row `topicQuery` returns for a subscriber. -/
def topicRowOf (db : Database) (appID : String) (u : UserRow) : TopicRow where
  userID := u.id
  grade := u.grade
  personalChatID := u.personalSupergroupChatID
  botIsAdmin := u.botIsAdmin
  topicID := (db.topics.find? (u.id, appID)).map UserTopic.topicID

theorem mem_topicQuery {db : Database} {appID : String} {row : TopicRow} :
    row ∈ topicQuery db appID ↔
      ∃ u ∈ db.users.rows, u.status = .active ∧
        (⟨u.id, appID⟩ : Subscription) ∈ db.subscriptions.rows ∧ row = topicRowOf db appID u := by
  simp only [topicQuery]
  rw [leftJoin_table (fun p => some (p.2.id, p.1.appID)) (fun p t => by simp [UserTopic.key]),
    mem_sortBy, List.map_map]
  simp only [List.mem_map, List.mem_flatMap, List.mem_filter, decide_eq_true_eq]
  constructor
  · rintro ⟨p, ⟨⟨user, app⟩, ⟨hsub, happ⟩, u, ⟨⟨hu, hactive⟩, hid⟩, rfl⟩, rfl⟩
    obtain rfl : app = appID := happ
    obtain rfl : u.id = user := hid
    exact ⟨u, hu, hactive, hsub, rfl⟩
  · rintro ⟨u, hu, hactive, hsub, rfl⟩
    exact ⟨(⟨u.id, appID⟩, u), ⟨_, ⟨hsub, rfl⟩, u, ⟨⟨hu, hactive⟩, rfl⟩, rfl⟩, rfl⟩

theorem topicRowOf_verdict {db : Database} {appID effectiveGrade : String} {u : UserRow}
    {rh : RecipientHandle} (hactive : u.status = .active)
    (hsub : (⟨u.id, appID⟩ : Subscription) ∈ db.subscriptions.rows) :
    (topicRowOf db appID u).verdict effectiveGrade = .ok rh ↔
      gradeRank effectiveGrade ≤ gradeRank u.grade ∧ InTopic db appID u rh := by
  constructor
  · intro h
    unfold TopicRow.verdict at h
    split at h
    · cases h
    · rename_i hgrade
      split at h
      · cases h
      · rename_i chatID hchat
        split at h
        · cases h
        · rename_i hadmin
          split at h
          · cases h
          · rename_i topicID htopic
            cases h
            refine ⟨not_lt.mp hgrade, hactive, hsub, hchat, ?_, find?_topic.mp htopic, rfl, rfl⟩
            simpa [topicRowOf] using hadmin
  · rintro ⟨hgrade, -, -, hlinked, hadmin, htopic, huser, hchannel⟩
    obtain ⟨userID, chatID, topicID, channel⟩ := rh
    obtain rfl : userID = u.id := huser
    obtain rfl : channel = "supergroup" := hchannel
    have htopic' := find?_topic.mpr htopic
    simp [TopicRow.verdict, topicRowOf, not_lt.mpr hgrade, hlinked, hadmin, htopic']

/-- **`ResolveTopic`**: the subscribers of sufficient grade who may get messages
in the app's topic. -/
theorem resolveTopic_spec (db : Database) (requestMinGrade : String) {appID : String}
    (happ : appActive db appID = true) :
    ∃ res, resolveTopic db appID requestMinGrade = .ok res ∧
      ∀ rh, rh ∈ res.recipients ↔
        ∃ u ∈ db.users.rows,
          gradeRank (maxGrade (appMinGrade db appID) requestMinGrade) ≤ gradeRank u.grade ∧
          InTopic db appID u rh := by
  refine ⟨_, by simp [resolveTopic, happ]; rfl, fun rh => ?_⟩
  rw [mem_foldl_add]
  constructor
  · rintro (hnone | ⟨row, hrow, hok⟩)
    · cases hnone
    · obtain ⟨u, hu, hactive, hsub, rfl⟩ := mem_topicQuery.mp hrow
      exact ⟨u, hu, (topicRowOf_verdict hactive hsub).mp hok⟩
  · rintro ⟨u, hu, hgrade, hin⟩
    exact .inr ⟨_, mem_topicQuery.mpr ⟨u, hu, hin.active, hin.subscribed, rfl⟩,
      (topicRowOf_verdict hin.active hin.subscribed).mpr ⟨hgrade, hin⟩⟩

theorem mem_resolveTopic {db : Database} {appID requestMinGrade : String} {res : ResolveResult}
    (hres : resolveTopic db appID requestMinGrade = .ok res) {rh : RecipientHandle} :
    rh ∈ res.recipients ↔ ∃ u ∈ db.users.rows,
      gradeRank (maxGrade (appMinGrade db appID) requestMinGrade) ≤ gradeRank u.grade ∧
      InTopic db appID u rh := by
  cases happ : appActive db appID with
  | false => simp [resolveTopic, happ] at hres
  | true =>
      obtain ⟨res', hres', hspec⟩ := resolveTopic_spec db requestMinGrade happ
      obtain rfl := Except.ok.inj (hres.symm.trans hres')
      exact hspec rh

/-! ### Messages to everybody -/

/-- `rh` leads to the general channel of the supergroup of a user who may get
messages there. -/
structure InGeneral (u : UserRow) (rh : RecipientHandle) : Prop where
  active : u.status = .active
  linked : u.personalSupergroupChatID = some rh.chatID
  admin : u.botIsAdmin = true
  user : rh.userID = u.id
  topic : rh.topicID = 0
  channel : rh.channel = "general"

/-- **`ResolveBroadcast`**: the users of sufficient grade who may get messages in
their supergroup. -/
theorem resolveBroadcast_spec (db : Database) (minGrade : String) :
    ∃ res, resolveBroadcast db minGrade = .ok res ∧
      ∀ rh, rh ∈ res.recipients ↔
        ∃ u ∈ db.users.rows, gradeRank minGrade ≤ gradeRank u.grade ∧ InGeneral u rh := by
  refine ⟨_, rfl, fun rh => ?_⟩
  rw [mem_foldl_add]
  simp only [broadcastQuery, mem_sortBy, List.mem_map, List.mem_filter, decide_eq_true_eq]
  constructor
  · rintro (hnone | ⟨row, ⟨u, ⟨hu, hactive⟩, rfl⟩, hok⟩)
    · cases hnone
    · refine ⟨u, hu, ?_⟩
      unfold BroadcastRow.verdict at hok
      split at hok
      · cases hok
      · rename_i hgrade
        split at hok
        · cases hok
        · rename_i chatID hchat
          split at hok
          · cases hok
          · rename_i hadmin
            cases hok
            exact ⟨not_lt.mp hgrade, hactive, hchat, by simpa using hadmin, rfl, rfl, rfl⟩
  · rintro ⟨u, hu, hgrade, hactive, hlinked, hadmin, huser, htopic, hchannel⟩
    obtain ⟨userID, chatID, topicID, channel⟩ := rh
    obtain rfl : userID = u.id := huser
    obtain rfl : topicID = 0 := htopic
    obtain rfl : channel = "general" := hchannel
    refine .inr ⟨_, ⟨u, ⟨hu, hactive⟩, rfl⟩, ?_⟩
    simp [BroadcastRow.verdict, not_lt.mpr hgrade, hlinked, hadmin]

/-! ### Direct messages to a private chat -/

/-- `rh` leads to the private chat of an active user. -/
structure InDM (u : UserRow) (rh : RecipientHandle) : Prop where
  active : u.status = .active
  chat : rh.chatID = u.telegramID
  user : rh.userID = u.id
  topic : rh.topicID = 0
  channel : rh.channel = "dm"

theorem dmVerdict_eq_ok {u : UserRow} {rh : RecipientHandle} :
    dmVerdict u = .ok rh ↔ InDM u rh := by
  constructor
  · intro h
    unfold dmVerdict at h
    split at h
    · cases h
    · rename_i hactive
      cases h
      exact ⟨by simpa using hactive, rfl, rfl, rfl, rfl⟩
  · rintro ⟨hactive, hchat, huser, htopic, hchannel⟩
    obtain ⟨userID, chatID, topicID, channel⟩ := rh
    simp_all [dmVerdict]

/-- **`ResolveDirectDM`**: the active users with a requested Telegram id. -/
theorem resolveDirectDM_spec (db : Database) (planner : Planner) (telegramIDs : List ℤ) :
    ∃ res, resolveDirectDM db planner telegramIDs = .ok res ∧
      ∀ rh, rh ∈ res.recipients ↔
        ∃ u ∈ db.users.rows, u.telegramID ∈ telegramIDs ∧ InDM u rh := by
  refine ⟨_, rfl, fun rh => ?_⟩
  simp only [← dmVerdict_eq_ok]
  refine mem_candidateLoop_users fun userID v => ?_
  constructor
  · rintro ⟨c, hc, huser, rfl⟩
    rw [(planner.perm _).mem_iff, directDMQuery] at hc
    obtain ⟨⟨req, ou⟩, hjoin, rfl⟩ := List.mem_map.mp hc
    cases ou with
    | none => cases huser
    | some u =>
        obtain ⟨hreq, hu, hon⟩ := mem_leftJoin.mp hjoin
        obtain rfl : u.telegramID = req := by simpa using hon
        exact ⟨u, hu, hreq, by simpa using huser, rfl⟩
  · rintro ⟨u, hu, hreq, rfl, rfl⟩
    refine ⟨⟨u.telegramID, some u.id, dmVerdict u⟩, ?_, rfl, rfl⟩
    rw [(planner.perm _).mem_iff, directDMQuery]
    exact List.mem_map.mpr ⟨(u.telegramID, some u), mem_leftJoin.mpr ⟨hreq, hu, by simp⟩, rfl⟩

end TelegramServer.Dispatch
