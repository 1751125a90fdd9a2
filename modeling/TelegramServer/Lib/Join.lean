import TelegramServer.Lib.Table

/-!
Joins of lists of rows. `leftJoin` keeps every left row: it is paired with each
right row that matches it, or with `none` if there is none.
-/

namespace TelegramServer.Lib

variable {α β : Type}

def leftJoin (on : α → β → Bool) (l : List α) (r : List β) : List (α × Option β) :=
  l.flatMap fun a =>
    match r.filter (on a) with
    | [] => [(a, none)]
    | b :: bs => (b :: bs).map fun b => (a, some b)

theorem mem_leftJoin {on : α → β → Bool} {l : List α} {r : List β} {a : α} {ob : Option β} :
    (a, ob) ∈ leftJoin on l r ↔
      a ∈ l ∧ match ob with
        | some b => b ∈ r ∧ on a b = true
        | none => ∀ b ∈ r, on a b = false := by
  unfold leftJoin
  rw [List.mem_flatMap]
  constructor
  · rintro ⟨a', ha', hmem⟩
    split at hmem
    · rename_i hempty
      obtain ⟨rfl, rfl⟩ : a = a' ∧ ob = none := by simpa using hmem
      refine ⟨ha', fun b hb => ?_⟩
      have hnot := List.filter_eq_nil_iff.mp hempty b hb
      simpa using hnot
    · rename_i b bs hcons
      rw [← hcons] at hmem
      obtain ⟨b', hb', heq⟩ := List.mem_map.mp hmem
      obtain ⟨rfl, rfl⟩ : a' = a ∧ some b' = ob := by simpa using heq
      exact ⟨ha', List.mem_filter.mp hb'⟩
  · rintro ⟨ha, hob⟩
    refine ⟨a, ha, ?_⟩
    cases ob with
    | none =>
        have hempty : r.filter (on a) = [] :=
          List.filter_eq_nil_iff.mpr fun b hb => by simp [hob b hb]
        simp [hempty]
    | some b =>
        have hb : b ∈ r.filter (on a) := List.mem_filter.mpr hob
        split
        · rename_i hempty
          rw [hempty] at hb
          cases hb
        · rename_i hcons
          rw [← hcons]
          exact List.mem_map_of_mem hb

/-- **Joining on a unique key** pairs every row with the one its reference finds,
so the join has one row for each left row. -/
theorem leftJoin_table {κ : Type} [DecidableEq κ] {key : β → κ} {t : Table key}
    {on : α → β → Bool} (ref : α → Option κ)
    (hon : ∀ a r, on a r = true ↔ some (key r) = ref a) (l : List α) :
    leftJoin on l t.rows = l.map fun a => (a, (ref a).bind t.find?) := by
  unfold leftJoin
  rw [← List.flatMap_singleton' (l.map _), List.flatMap_map]
  refine List.flatMap_congr fun a _ => ?_
  have hmem : ∀ r, r ∈ t.rows.filter (on a) ↔ (ref a).bind t.find? = some r := by
    intro r
    rw [List.mem_filter, hon, Option.bind_eq_some_iff]
    constructor
    · rintro ⟨hr, hkey⟩
      exact ⟨key r, hkey.symm, Table.find?_eq_some.mpr ⟨hr, rfl⟩⟩
    · rintro ⟨k, hk, hfind⟩
      obtain ⟨hr, rfl⟩ := Table.find?_eq_some.mp hfind
      exact ⟨hr, hk.symm⟩
  split
  · rename_i hempty
    cases hfind : (ref a).bind t.find? with
    | none => rfl
    | some r =>
        have hr := (hmem r).mpr hfind
        rw [hempty] at hr
        cases hr
  · rename_i r rest hcons
    have hfind : (ref a).bind t.find? = some r := (hmem r).mp (by simp [hcons])
    have hnodup : (t.rows.filter (on a)).Nodup :=
      (List.Nodup.of_map key t.nodup).sublist List.filter_sublist
    -- a second match would be the same row again
    have hrest : rest = [] := by
      cases rest with
      | nil => rfl
      | cons r' rest =>
          have hr' := (hmem r').mp (by simp [hcons])
          obtain rfl : r = r' := Option.some.inj (hfind.symm.trans hr')
          simp [hcons] at hnodup
    rw [hfind, hrest]
    rfl

end TelegramServer.Lib
