import Lightpath.Proofs.Json.Codec
import Lightpath.Quality.Table
import Mathlib.Data.List.Induction

/-!
# Parameter tables and their documents

A table document may repeat a name. Its table lists every name once, where it first occurred, with
the value that was written last. A table itself repeats no name, so that its own document keeps its
entries as they are.
-/

namespace Lightpath.ParameterTable

/-! ## Tables of lists -/

theorem ext {t t' : ParameterTable} (h : t.entries = t'.entries) : t = t' := by
  cases t; cases t'; cases h; rfl

theorem ofList_concat (l : List (String × Float)) (e : String × Float) :
    ofList (l ++ [e]) = (ofList l).insert e.1 e.2 := List.foldl_concat ..

theorem entries_ofList_concat (l : List (String × Float)) (e : String × Float) :
    (ofList (l ++ [e])).entries = putEntry e.1 e.2 (ofList l).entries := by
  rw [ofList_concat]
  rfl

/-- A new name goes to the end. -/
theorem putEntry_of_notMem {name : String} (value : Float) {l : List (String × Float)}
    (h : name ∉ l.map Prod.fst) : putEntry name value l = l ++ [(name, value)] := by
  induction l with
  | nil => rfl
  | cons e rest ih =>
    obtain ⟨hne, hrest⟩ := not_or.1 (fun hm => h (List.mem_cons.2 hm))
    rw [putEntry, if_neg (fun he => hne he.symm), ih hrest, List.cons_append]

/-- A list that repeats no name is a table as it is. -/
theorem entries_ofList_of_nodup {l : List (String × Float)} (h : (l.map Prod.fst).Nodup) :
    (ofList l).entries = l := by
  induction l using List.reverseRecOn with
  | nil => rfl
  | append_singleton l e ih =>
    rw [List.map_append, List.nodup_append] at h
    have hnew : e.1 ∉ l.map Prod.fst := fun hm => h.2.2 _ hm _ (List.mem_singleton_self _) rfl
    rw [entries_ofList_concat, ih h.1, putEntry_of_notMem e.2 hnew]

/-- The names of a table stand in the order of their first occurrence. -/
theorem names_ofList (l : List (String × Float)) :
    (ofList l).entries.map Prod.fst = (l.map Prod.fst).eraseDups := by
  induction l using List.reverseRecOn with
  | nil => rfl
  | append_singleton l e ih =>
    rw [entries_ofList_concat, map_fst_putEntry, ih, List.map_append, List.eraseDups_append]
    -- a name that occurred before adds nothing to either side
    by_cases h : e.1 ∈ l.map Prod.fst
    · simp [h, List.removeAll]
    · simp [h, List.removeAll, List.eraseDups_cons]

example : (ofList [("zeta", 1.0), ("alpha", 2.0), ("zeta", 3.0)]).entries.map Prod.fst =
    ["zeta", "alpha"] := by decide

theorem find?_putEntry (name name' : String) (value : Float) (l : List (String × Float)) :
    (putEntry name value l).find? (fun e => e.1 == name') =
      if name' = name then some (name, value) else l.find? (fun e => e.1 == name') := by
  by_cases h : name' = name
  · subst h
    rw [if_pos rfl]
    induction l with
    | nil => simp [putEntry]
    | cons e rest ih => by_cases he : e.1 = name' <;> simp [putEntry, he, ih]
  · have hne : name ≠ name' := Ne.symm h
    rw [if_neg h]
    induction l with
    | nil => simp [putEntry, hne]
    | cons e rest ih => by_cases he : e.1 = name <;> simp [putEntry, he, hne, ih, List.find?_cons]

theorem get?_insert (t : ParameterTable) (name name' : String) (value : Float) :
    (t.insert name value).get? name' = if name' = name then some value else t.get? name' := by
  rw [get?, insert, find?_putEntry, apply_ite (Option.map Prod.snd)]
  rfl

/-- The value of a name is the one that was given last. -/
theorem get?_ofList (l : List (String × Float)) (name : String) :
    (ofList l).get? name = (l.reverse.find? (fun e => e.1 == name)).map Prod.snd := by
  induction l using List.reverseRecOn with
  | nil => rfl
  | append_singleton l e ih =>
    rw [ofList_concat, get?_insert, ih, List.reverse_concat, List.find?_cons]
    by_cases h : name = e.1
    · rw [if_pos h, h, beq_self_eq_true]
      rfl
    · rw [if_neg h, beq_eq_false_iff_ne.2 (Ne.symm h)]

theorem get?_of_mem {t : ParameterTable} {e : String × Float} (h : e ∈ t.entries) :
    t.get? e.1 = some e.2 := by
  have hfind : t.entries.find? (fun e' => e'.1 == e.1) = some e := by
    obtain ⟨l, hnodup⟩ := t
    induction l with
    | nil => exact absurd h List.not_mem_nil
    | cons e' rest ih =>
      obtain ⟨hnew, hrest⟩ := List.nodup_cons.1 hnodup
      rcases List.mem_cons.1 h with rfl | hmem
      · rw [List.find?_cons, beq_self_eq_true]
      · have hne : e'.1 ≠ e.1 := fun he => hnew (List.mem_map.2 ⟨e, hmem, he.symm⟩)
        rw [List.find?_cons, beq_eq_false_iff_ne.2 hne]
        exact ih hrest hmem
  rw [get?, hfind, Option.map_some]

/-- A table is determined by its names in their order and their values. -/
theorem ext_get? {t t' : ParameterTable}
    (hnames : t.entries.map Prod.fst = t'.entries.map Prod.fst)
    (hget : ∀ name, t.get? name = t'.get? name) : t = t' := by
  have hlength : t.entries.length = t'.entries.length := by
    rw [← List.length_map, hnames, List.length_map]
  refine ext (List.ext_getElem hlength fun i hi hi' => ?_)
  have hname : t.entries[i].1 = t'.entries[i].1 := by
    have hi'' : i < (t.entries.map Prod.fst).length := by rwa [List.length_map]
    simpa only [List.getElem_map] using List.getElem_of_eq hnames hi''
  have hvalue := hget t.entries[i].1
  rw [get?_of_mem (List.getElem_mem hi), hname, get?_of_mem (List.getElem_mem hi')] at hvalue
  exact Prod.ext hname (Option.some.inj hvalue)

/-! ## Table documents -/

/-- A table is restored from its document, in the same order, if its values are finite. -/
theorem restores (t : ParameterTable) :
    Json.Restores (ofJson? t.toJson) t (∀ e ∈ t.entries, e.2.isFinite = true) := by
  have hread := (Json.restores_entries Json.some_id Json.restores_float t.entries).map ofList
  have htable : ofList t.entries = t := ext (entries_ofList_of_nodup t.nodup)
  rwa [htable] at hread

/-- The entries are the numbers that the members of a table document hold. -/
def NumbersOf (members : List (String × Json)) (l : List (String × Float)) : Prop :=
  List.Forall₂ (fun m e => m.1 = e.1 ∧ Json.float? m.2 = some e.2) members l

theorem NumbersOf.names_eq {members : List (String × Json)} {l : List (String × Float)}
    (h : NumbersOf members l) : l.map Prod.fst = members.map Prod.fst := by
  rw [eq_comm, ← List.forall₂_eq_eq_eq, List.forall₂_map_left_iff, List.forall₂_map_right_iff]
  exact h.imp fun _ _ he => he.1

theorem exists_numbersOf_iff {members : List (String × Json)} :
    (∃ l, NumbersOf members l) ↔ ∀ m ∈ members, (Json.float? m.2).isSome := by
  constructor
  · rintro ⟨l, h⟩
    refine ((List.forall₂_and_left ..).1 (h.imp fun m e hme => ⟨?_, hme⟩)).1
    rw [hme.2, Option.isSome_some]
  · intro h
    induction members with
    | nil => exact ⟨[], .nil⟩
    | cons m rest ih =>
      obtain ⟨hm, hrest⟩ := List.forall_mem_cons.1 h
      obtain ⟨x, hx⟩ := Option.isSome_iff_exists.1 hm
      obtain ⟨l, hl⟩ := ih hrest
      exact ⟨(m.1, x) :: l, .cons ⟨rfl, hx⟩ hl⟩

theorem ofJson?_obj_eq_some_iff {members : List (String × Json)} {t : ParameterTable} :
    ofJson? (.obj members) = some t ↔ ∃ l, NumbersOf members l ∧ ofList l = t := by
  rw [ofJson?, Option.map_eq_some_iff]
  simp only [Json.entries?_eq_some_iff, Option.some.injEq]
  rfl

/-- The last entry of a name holds the number of its last member. -/
theorem find?_numbers {members : List (String × Json)} {l : List (String × Float)}
    (h : NumbersOf members l) (name : String) :
    (l.find? (fun e => e.1 == name)).map Prod.snd =
      ((members.find? (fun m => m.1 == name)).map Prod.snd).bind Json.float? := by
  induction h with
  | nil => rfl
  | @cons m e _ _ hme _ ih =>
    rw [List.find?_cons, List.find?_cons, hme.1]
    by_cases he : e.1 == name
    · rw [he]
      exact hme.2.symm
    · rw [Bool.not_eq_true] at he
      rw [he]
      exact ih

/-- A table document is an object with numbers only. Its table has its names in the order of their
first occurrence, and the number of a name is the last one written for it. -/
theorem ofJson?_eq_some_iff {members : List (String × Json)} {t : ParameterTable} :
    ofJson? (.obj members) = some t ↔
      (∀ m ∈ members, (Json.float? m.2).isSome) ∧
      t.entries.map Prod.fst = (members.map Prod.fst).eraseDups ∧
      ∀ name, t.get? name = (Json.lastMember? name members).bind Json.float? := by
  -- the table of the numbers has these names and values
  have hspec {l : List (String × Float)} (h : NumbersOf members l) :
      (ofList l).entries.map Prod.fst = (members.map Prod.fst).eraseDups ∧
        ∀ name, (ofList l).get? name = (Json.lastMember? name members).bind Json.float? := by
    refine ⟨?_, fun name => ?_⟩
    · rw [names_ofList, h.names_eq]
    · rw [get?_ofList, find?_numbers (List.rel_reverse h), Json.lastMember?]
  rw [ofJson?_obj_eq_some_iff, ← exists_numbersOf_iff]
  constructor
  · rintro ⟨l, hl, rfl⟩
    exact ⟨⟨l, hl⟩, hspec hl⟩
  · rintro ⟨⟨l, hl⟩, hnames, hget⟩
    refine ⟨l, hl, ext_get? ?_ fun name => ?_⟩
    · rw [(hspec hl).1, hnames]
    · rw [(hspec hl).2, hget]

end Lightpath.ParameterTable
