import TelegramServer.Dispatch.Recipients

/-!
Grades. A request may ask for a minimal grade, an app has one, and a user has the
grade that is stored. The meaning of such a text is a `Grade` or nothing, and a
text that names no grade should be a requirement that nobody meets. The code has
one number for both sides: `gradeRank` is 0 for a text it does not know, which as
the rank of a user is too low for anything and as a requirement is none at all.
-/

namespace TelegramServer.Dispatch

open Go Lib Registry

inductive Grade
  | user | developer | admin
  deriving DecidableEq

def Grade.rank : Grade → ℕ
  | .user => 1
  | .developer => 2
  | .admin => 3

/-- The grade a requirement names. -/
def namedGrade (s : String) : Option Grade :=
  let s := toLower (trimSpace s)
  if s = "" ∨ s = "user" then some .user
  else if s = "developer" ∨ s = "dev" then some .developer
  else if s = "admin" then some .admin
  else none

/-- The rank a requirement asks for; if it names no grade, more than there is. -/
def requiredRank (s : String) : ℕ := (namedGrade s).elim 4 Grade.rank

/-- The handles of a result; an error has none. -/
def handles : Except StrategyErr ResolveResult → List RecipientHandle
  | .ok res => res.recipients
  | .error _ => []

/-! ### Ranks -/

theorem gradeRank_le (g : String) : gradeRank g ≤ 3 := by
  unfold gradeRank
  dsimp only
  split_ifs <;> omega

theorem gradeRank_maxGrade (a b : String) :
    gradeRank (maxGrade a b) = max (gradeRank a) (gradeRank b) := by
  unfold maxGrade
  split <;> omega

theorem Grade.one_le_rank (g : Grade) : 1 ≤ g.rank := by
  cases g <;> decide

/-- The strategies normalise a requirement and rank what comes out. -/
theorem gradeRank_normalizeGrade (s : String) :
    gradeRank (normalizeGrade s) = (namedGrade s).elim 0 Grade.rank := by
  have hidem := toLower_trimSpace_idem s
  have hdeveloper : gradeRank "developer" = 2 := by decide
  have huser : gradeRank "user" = 1 := by decide
  unfold normalizeGrade namedGrade
  dsimp only
  generalize toLower (trimSpace s) = t at hidem
  by_cases hdev : t = "dev"
  · subst hdev
    simpa [Grade.rank] using hdeveloper
  · by_cases hempty : t = ""
    · subst hempty
      simpa [Grade.rank] using huser
    · rw [if_neg hdev, if_neg hempty]
      simp only [gradeRank, hidem, hdev, hempty, false_or, or_false]
      by_cases hu : t = "user"
      · simp [hu, Grade.rank]
      by_cases hd : t = "developer"
      · simp [hd, Grade.rank]
      by_cases ha : t = "admin"
      · simp [ha, Grade.rank]
      · simp [hu, hd, ha]

theorem gradeRank_eq (s : String) :
    gradeRank s = if toLower (trimSpace s) = "" then 0 else (namedGrade s).elim 0 Grade.rank := by
  unfold gradeRank namedGrade
  dsimp only
  generalize toLower (trimSpace s) = t
  by_cases hempty : t = ""
  · simp [hempty]
  by_cases hu : t = "user"
  · simp [hu, Grade.rank]
  by_cases hd : t = "developer" ∨ t = "dev"
  · rcases hd with rfl | rfl <;> simp [Grade.rank]
  by_cases ha : t = "admin"
  · simp [ha, Grade.rank]
  · simp [hempty, hu, hd, ha]

variable {s : String} {n : ℕ}

theorem requiredRank_eq (h : namedGrade s ≠ none) :
    requiredRank s = gradeRank (normalizeGrade s) := by
  rw [requiredRank, gradeRank_normalizeGrade]
  cases hs : namedGrade s with
  | none => exact absurd hs h
  | some g => rfl

theorem gradeRank_normalizeGrade_le (s : String) :
    gradeRank (normalizeGrade s) ≤ requiredRank s := by
  rw [requiredRank, gradeRank_normalizeGrade]
  cases namedGrade s with
  | none => exact Nat.zero_le _
  | some g => exact le_rfl

theorem one_le_requiredRank (s : String) : 1 ≤ requiredRank s := by
  rw [requiredRank]
  cases namedGrade s with
  | none => decide
  | some g => exact g.one_le_rank

/-- No stored grade meets a requirement that names none. -/
theorem namedGrade_of_requiredRank_le {g : String} (h : requiredRank s ≤ gradeRank g) :
    namedGrade s ≠ none := by
  intro hnone
  have hmax := gradeRank_le g
  rw [requiredRank, hnone, Option.elim_none] at h
  omega

theorem gradeRank_normalizeGrade_of_none (h : namedGrade s = none) :
    gradeRank (normalizeGrade s) = 0 := by
  rw [gradeRank_normalizeGrade, h, Option.elim_none]

/-- For the grades there are it does not matter that the minimum of an app is not
normalised: an empty one asks for the grade `user`. -/
theorem requiredRank_le_iff (h : namedGrade s ≠ none) (hn : 1 ≤ n) :
    requiredRank s ≤ n ↔ gradeRank s ≤ n := by
  rw [requiredRank, gradeRank_eq]
  by_cases hempty : toLower (trimSpace s) = ""
  · simpa [namedGrade, hempty, Grade.rank] using hn
  · rw [if_neg hempty]
    cases hs : namedGrade s with
    | none => exact absurd hs h
    | some g => simp

theorem gradeRank_eq_zero (h : namedGrade s = none) : gradeRank s = 0 := by
  rw [gradeRank_eq, h, Option.elim_none, ite_self]

/-! ### What the resolvers return -/

section Handles

variable {db : Database} {planner : Planner} {appID : String} {rh : RecipientHandle}

theorem mem_handles_resolveDirect {userIDs : List ℤ} :
    rh ∈ handles (resolveDirect db planner userIDs appID) ↔
      appActive db appID = true ∧
        ∃ u ∈ db.users.rows, u.id ∈ userIDs ∧ InTopic db appID u rh := by
  cases happ : appActive db appID with
  | false => simp [resolveDirect, happ, handles]
  | true =>
      obtain ⟨res, hres, hspec⟩ := resolveDirect_spec db planner userIDs happ
      simp [hres, handles, hspec]

theorem mem_handles_resolveTopic {requestMinGrade : String} :
    rh ∈ handles (resolveTopic db appID requestMinGrade) ↔
      appActive db appID = true ∧ ∃ u ∈ db.users.rows,
        max (gradeRank (appMinGrade db appID)) (gradeRank requestMinGrade) ≤ gradeRank u.grade ∧
        InTopic db appID u rh := by
  cases happ : appActive db appID with
  | false => simp [resolveTopic, happ, handles]
  | true =>
      obtain ⟨res, hres, hspec⟩ := resolveTopic_spec db requestMinGrade happ
      simp only [hres, handles, hspec, gradeRank_maxGrade, true_and]

theorem mem_handles_topicStrategy {req : Request} :
    rh ∈ handles ((topicStrategy db).resolve req) ↔
      req.appID ≠ "" ∧ appActive db req.appID = true ∧ ∃ u ∈ db.users.rows,
        max (gradeRank (appMinGrade db req.appID)) (gradeRank (normalizeGrade req.minGrade)) ≤
          gradeRank u.grade ∧ InTopic db req.appID u rh := by
  simp only [topicStrategy]
  split
  · next hempty => simp [handles, hempty]
  · next hne => rw [mem_handles_resolveTopic, and_iff_right hne]

theorem mem_handles_broadcastAllStrategy {req : Request} :
    rh ∈ handles ((broadcastAllStrategy db).resolve req) ↔
      ∃ u ∈ db.users.rows,
        gradeRank (normalizeGrade req.minGrade) ≤ gradeRank u.grade ∧ InGeneral u rh := by
  obtain ⟨res, hres, hspec⟩ := resolveBroadcast_spec db (normalizeGrade req.minGrade)
  simp [broadcastAllStrategy, hres, handles, hspec]

end Handles

/-! ### The two paths to a topic -/

/-- A user may get the messages of an app at `rh`: what `InTopic` asks for, and a grade that
reaches the minimum of the app and the grade `user` that a request asks for by default. -/
structure Entitled (db : Database) (appID : String) (u : UserRow) (rh : RecipientHandle) :
    Prop where
  inTopic : InTopic db appID u rh
  app : gradeRank (appMinGrade db appID) ≤ gradeRank u.grade
  request : gradeRank "user" ≤ gradeRank u.grade

/-- `ResolveDirect` and `ResolveTopic` return the same handles for a user, those the user is
entitled to. -/
structure PathsAgree (db : Database) (planner : Planner) (appID : String) (userID : ℤ) :
    Prop where
  same : ∀ rh, rh.userID = userID →
    (rh ∈ handles (resolveDirect db planner [userID] appID) ↔
      rh ∈ handles (resolveTopic db appID "user"))
  entitled : ∀ rh, rh.userID = userID →
    (rh ∈ handles (resolveDirect db planner [userID] appID) ↔
      appActive db appID = true ∧ ∃ u ∈ db.users.rows, Entitled db appID u rh)

/-- **The direct path skips the grade.** The two paths agree on a user exactly if the user's
grade is sufficient whenever everything else is. -/
theorem pathsAgree_iff (db : Database) (planner : Planner) (appID : String) (userID : ℤ) :
    PathsAgree db planner appID userID ↔
      (appActive db appID = true → ∀ u ∈ db.users.rows, u.id = userID →
        (∃ rh, InTopic db appID u rh) →
          gradeRank (appMinGrade db appID) ≤ gradeRank u.grade ∧
            gradeRank "user" ≤ gradeRank u.grade) := by
  have htopic (rh : RecipientHandle) : rh ∈ handles (resolveTopic db appID "user") ↔
      appActive db appID = true ∧ ∃ u ∈ db.users.rows, Entitled db appID u rh := by
    rw [mem_handles_resolveTopic]
    refine and_congr_right fun _ => exists_congr fun u => and_congr_right fun _ => ?_
    rw [max_le_iff]
    exact ⟨fun ⟨⟨happ, hreq⟩, hin⟩ => ⟨hin, happ, hreq⟩, fun h => ⟨⟨h.app, h.request⟩, h.inTopic⟩⟩
  constructor
  · rintro h happ u hu rfl ⟨rh, hin⟩
    have hdirect : rh ∈ handles (resolveDirect db planner [u.id] appID) :=
      mem_handles_resolveDirect.mpr ⟨happ, u, hu, List.mem_singleton.mpr rfl, hin⟩
    obtain ⟨-, u', hu', hentitled⟩ := (h.entitled rh hin.user).mp hdirect
    obtain rfl := db.users.eq_of_key_eq hu' hu (hentitled.inTopic.user.symm.trans hin.user)
    exact ⟨hentitled.app, hentitled.request⟩
  · intro h
    have hdirect (rh : RecipientHandle) (huser : rh.userID = userID) :
        rh ∈ handles (resolveDirect db planner [userID] appID) ↔
          appActive db appID = true ∧ ∃ u ∈ db.users.rows, Entitled db appID u rh := by
      rw [mem_handles_resolveDirect]
      refine and_congr_right fun happ => exists_congr fun u => and_congr_right fun hu => ?_
      constructor
      · rintro ⟨hid, hin⟩
        obtain ⟨hmin, hreq⟩ := h happ u hu (List.mem_singleton.mp hid) ⟨rh, hin⟩
        exact ⟨hin, hmin, hreq⟩
      · intro hentitled
        have hid := hentitled.inTopic.user.symm.trans huser
        exact ⟨List.mem_singleton.mpr hid, hentitled.inTopic⟩
    exact ⟨fun rh huser => (hdirect rh huser).trans (htopic rh).symm, hdirect⟩

/-- A user of the lowest grade who is subscribed to an app for developers. -/
def demotedUser : Database where
  users :=
    ⟨[{ id := 1, telegramID := 101, personalSupergroupChatID := some (-100), botIsAdmin := true }],
      by decide⟩
  telegramID_nodup := by decide
  userSeq := 1
  subscriptions := ⟨[⟨1, "ops"⟩], by decide⟩
  topics := ⟨[⟨1, "ops", 7⟩], by decide⟩
  tokens := .empty
  apps := ⟨[{ id := "ops", name := "Ops", minGrade := "developer" }], by decide⟩

theorem demotedUser_direct_only :
    handles (resolveDirect demotedUser .inOrder [1] "ops") = [⟨1, -100, 7, "supergroup"⟩] ∧
      handles (resolveTopic demotedUser "ops" "user") = [] ∧
      ¬PathsAgree demotedUser .inOrder "ops" 1 := by
  have hdirect : handles (resolveDirect demotedUser .inOrder [1] "ops") =
      [⟨1, -100, 7, "supergroup"⟩] := by
    decide +kernel
  have htopic : handles (resolveTopic demotedUser "ops" "user") = [] := by decide +kernel
  refine ⟨hdirect, htopic, fun h => ?_⟩
  have hsame := (h.same ⟨1, -100, 7, "supergroup"⟩ rfl).mp (by simp [hdirect])
  simp [htopic] at hsame

/-! ### Requirements of a request -/

/-- The bot can write into the user's supergroup. -/
structure Reachable (u : UserRow) : Prop where
  active : u.status = .active
  linked : u.personalSupergroupChatID ≠ none
  admin : u.botIsAdmin = true

theorem Reachable.inGeneral {u : UserRow} (h : Reachable u) : ∃ rh, InGeneral u rh := by
  obtain ⟨chatID, hchat⟩ := Option.ne_none_iff_exists'.mp h.linked
  exact ⟨⟨u.id, chatID, 0, "general"⟩, h.active, hchat, h.admin, rfl, rfl, rfl⟩

theorem InGeneral.reachable {u : UserRow} {rh : RecipientHandle} (h : InGeneral u rh) :
    Reachable u :=
  ⟨h.active, by simp [h.linked], h.admin⟩

theorem InTopic.reachable {db : Database} {appID : String} {u : UserRow} {rh : RecipientHandle}
    (h : InTopic db appID u rh) : Reachable u :=
  ⟨h.active, by simp [h.linked], h.admin⟩

/-- The grade filters of the topic and the broadcast strategy fail closed on a request, and do
not let anybody else in if its requirement is replaced by the stricter `s`. -/
structure FailsClosed (db : Database) (req : Request) (s : String) : Prop where
  topic : ∀ rh ∈ handles ((topicStrategy db).resolve req),
    ∃ u ∈ db.users.rows, u.id = rh.userID ∧ 1 ≤ gradeRank u.grade ∧
      requiredRank req.minGrade ≤ gradeRank u.grade ∧
      requiredRank (appMinGrade db req.appID) ≤ gradeRank u.grade
  broadcast : ∀ rh ∈ handles ((broadcastAllStrategy db).resolve req),
    ∃ u ∈ db.users.rows, u.id = rh.userID ∧ 1 ≤ gradeRank u.grade ∧
      requiredRank req.minGrade ≤ gradeRank u.grade
  unnamed : namedGrade req.minGrade = none →
    handles ((topicStrategy db).resolve req) = [] ∧
      handles ((broadcastAllStrategy db).resolve req) = []
  stricter : requiredRank req.minGrade < requiredRank s →
    handles ((topicStrategy db).resolve { req with minGrade := s }) ⊆
        handles ((topicStrategy db).resolve req) ∧
      handles ((broadcastAllStrategy db).resolve { req with minGrade := s }) ⊆
        handles ((broadcastAllStrategy db).resolve req)

/-- A text that names no grade is only used where nobody could get the message by it. -/
structure GradesNamed (db : Database) (req : Request) (s : String) : Prop where
  request : namedGrade req.minGrade = none → ∀ u ∈ db.users.rows, ¬Reachable u
  replaced : namedGrade s = none →
    ∀ u ∈ db.users.rows, Reachable u → requiredRank req.minGrade ≤ gradeRank u.grade
  app : namedGrade (appMinGrade db req.appID) = none → req.appID ≠ "" →
    appActive db req.appID = true → ∀ u ∈ db.users.rows, (∃ rh, InTopic db req.appID u rh) →
      gradeRank u.grade < requiredRank req.minGrade

section FailsClosed

variable {db : Database} {req : Request} {s : String}

/-- Who passes the filter of a request has the rank it asks for, unless the request names no
grade and there is somebody to reach. -/
theorem GradesNamed.requiredRank_le (h : GradesNamed db req s) {u : UserRow}
    (hu : u ∈ db.users.rows) (hreach : Reachable u)
    (hpass : gradeRank (normalizeGrade req.minGrade) ≤ gradeRank u.grade) :
    requiredRank req.minGrade ≤ gradeRank u.grade := by
  have hnamed : namedGrade req.minGrade ≠ none := fun hnone => h.request hnone u hu hreach
  rwa [requiredRank_eq hnamed]

/-- The same for the requirement it is replaced by. -/
theorem GradesNamed.requiredRank_le_of_stricter (h : GradesNamed db req s) {u : UserRow}
    (hu : u ∈ db.users.rows) (hreach : Reachable u)
    (hlt : requiredRank req.minGrade < requiredRank s)
    (hpass : gradeRank (normalizeGrade s) ≤ gradeRank u.grade) :
    requiredRank req.minGrade ≤ gradeRank u.grade := by
  by_cases hs : namedGrade s = none
  · exact h.replaced hs u hu hreach
  · rw [← requiredRank_eq hs] at hpass
    omega

theorem GradesNamed.failsClosed (h : GradesNamed db req s) : FailsClosed db req s where
  topic := by
    intro rh hrh
    obtain ⟨hne, happ, u, hu, hpass, hin⟩ := mem_handles_topicStrategy.mp hrh
    obtain ⟨hmin, hreq⟩ := max_le_iff.mp hpass
    have hrank := h.requiredRank_le hu hin.reachable hreq
    have hone : 1 ≤ gradeRank u.grade := (one_le_requiredRank _).trans hrank
    refine ⟨u, hu, hin.user.symm, hone, hrank, ?_⟩
    have hnamed : namedGrade (appMinGrade db req.appID) ≠ none := by
      intro hnone
      have hlt := h.app hnone hne happ u hu ⟨rh, hin⟩
      omega
    exact (requiredRank_le_iff hnamed hone).mpr hmin
  broadcast := by
    intro rh hrh
    obtain ⟨u, hu, hpass, hin⟩ := mem_handles_broadcastAllStrategy.mp hrh
    have hrank := h.requiredRank_le hu hin.reachable hpass
    exact ⟨u, hu, hin.user.symm, (one_le_requiredRank _).trans hrank, hrank⟩
  unnamed := by
    intro hnone
    constructor
    · refine List.eq_nil_iff_forall_not_mem.mpr fun rh hrh => ?_
      obtain ⟨-, -, u, hu, -, hin⟩ := mem_handles_topicStrategy.mp hrh
      exact h.request hnone u hu hin.reachable
    · refine List.eq_nil_iff_forall_not_mem.mpr fun rh hrh => ?_
      obtain ⟨u, hu, -, hin⟩ := mem_handles_broadcastAllStrategy.mp hrh
      exact h.request hnone u hu hin.reachable
  stricter := by
    intro hlt
    constructor
    · intro rh hrh
      obtain ⟨hne, happ, u, hu, hpass, hin⟩ := mem_handles_topicStrategy.mp hrh
      obtain ⟨hmin, hs⟩ := max_le_iff.mp hpass
      have hrank := h.requiredRank_le_of_stricter hu hin.reachable hlt hs
      exact mem_handles_topicStrategy.mpr ⟨hne, happ, u, hu,
        max_le hmin ((gradeRank_normalizeGrade_le _).trans hrank), hin⟩
    · intro rh hrh
      obtain ⟨u, hu, hs, hin⟩ := mem_handles_broadcastAllStrategy.mp hrh
      have hrank := h.requiredRank_le_of_stricter hu hin.reachable hlt hs
      exact mem_handles_broadcastAllStrategy.mpr ⟨u, hu,
        (gradeRank_normalizeGrade_le _).trans hrank, hin⟩

theorem FailsClosed.not_reachable (h : FailsClosed db req s)
    (hnone : namedGrade req.minGrade = none) {u : UserRow} (hu : u ∈ db.users.rows) :
    ¬Reachable u := by
  intro hreach
  obtain ⟨rh, hin⟩ := hreach.inGeneral
  have hrh : rh ∈ handles ((broadcastAllStrategy db).resolve req) := by
    refine mem_handles_broadcastAllStrategy.mpr ⟨u, hu, ?_, hin⟩
    rw [gradeRank_normalizeGrade_of_none hnone]
    exact Nat.zero_le _
  rw [(h.unnamed hnone).2] at hrh
  cases hrh

theorem FailsClosed.gradesNamed (h : FailsClosed db req s) : GradesNamed db req s where
  request := fun hnone u hu => h.not_reachable hnone hu
  replaced := by
    intro hs u hu hreach
    have hnamed : namedGrade req.minGrade ≠ none := fun hnone => h.not_reachable hnone hu hreach
    have hlt : requiredRank req.minGrade < requiredRank s := by
      have hmax := gradeRank_le (normalizeGrade req.minGrade)
      rw [requiredRank_eq hnamed, requiredRank, hs, Option.elim_none]
      omega
    obtain ⟨rh, hin⟩ := hreach.inGeneral
    have hrh : rh ∈ handles ((broadcastAllStrategy db).resolve { req with minGrade := s }) := by
      refine mem_handles_broadcastAllStrategy.mpr ⟨u, hu, ?_, hin⟩
      rw [gradeRank_normalizeGrade_of_none hs]
      exact Nat.zero_le _
    obtain ⟨u', hu', hpass, hin'⟩ :=
      mem_handles_broadcastAllStrategy.mp ((h.stricter hlt).2 hrh)
    obtain rfl := db.users.eq_of_key_eq hu' hu (hin'.user.symm.trans hin.user)
    rwa [requiredRank_eq hnamed]
  app := by
    rintro hnone hne happ u hu ⟨rh, hin⟩
    by_contra hnot
    have hrank : requiredRank req.minGrade ≤ gradeRank u.grade := not_lt.mp hnot
    have hrh : rh ∈ handles ((topicStrategy db).resolve req) := by
      refine mem_handles_topicStrategy.mpr ⟨hne, happ, u, hu, max_le ?_ ?_, hin⟩
      · rw [gradeRank_eq_zero hnone]
        exact Nat.zero_le _
      · exact (gradeRank_normalizeGrade_le _).trans hrank
    obtain ⟨u', -, -, -, -, happrank⟩ := h.topic rh hrh
    exact namedGrade_of_requiredRank_le happrank hnone

/-- **Grade filtering fails closed** exactly if a text that names no grade is only used where
nobody could get the message by it. -/
theorem failsClosed_iff (db : Database) (req : Request) (s : String) :
    FailsClosed db req s ↔ GradesNamed db req s :=
  ⟨FailsClosed.gradesNamed, GradesNamed.failsClosed⟩

end FailsClosed

/-- A misspelt requirement lets everybody in: a broadcast to the grade `admn` reaches a user
whom a broadcast to `developer` does not reach. -/
theorem misspelt_grade_reaches_all :
    handles ((broadcastAllStrategy demotedUser).resolve
        { minGrade := "admn", envelope := {} }) = [⟨1, -100, 0, "general"⟩] ∧
      handles ((broadcastAllStrategy demotedUser).resolve
        { minGrade := "developer", envelope := {} }) = [] ∧
      ¬FailsClosed demotedUser { minGrade := "admn", envelope := {} } "admin" := by
  have hmisspelt : handles ((broadcastAllStrategy demotedUser).resolve
      { minGrade := "admn", envelope := {} }) = [⟨1, -100, 0, "general"⟩] := by
    decide +kernel
  refine ⟨hmisspelt, by decide +kernel, fun h => ?_⟩
  have hnone := (h.unnamed (by decide)).2
  rw [hmisspelt] at hnone
  cases hnone

end TelegramServer.Dispatch
