import Lightpath.Collection.SortedMap
import Lightpath.Json.Decode
import Mathlib.Data.List.Forall2

/-!
# Codecs — what the decoders make of written values

`Json.Restores read x p` says what reading a written value `x` gives: `x` itself if documents can
express it, which is the condition `p`, and nothing otherwise. A scalar has a condition of its own;
an array is restored if each of its items is, an object if each of its values is, and a record if
each of its fields is (`Json.Restores.bind`). A record is written with its fields in the order in
which they are read, and leaves out those without content, so `fields?` finds every field where its
writer put it.
-/

namespace Lightpath.Json

/-- Reading gives the value `x` if `p` holds, and nothing otherwise. -/
def Restores {α : Type} (read : Option α) (x : α) (p : Prop) : Prop :=
  ∀ y, read = some y ↔ p ∧ x = y

namespace Restores

variable {α β : Type} {read : Option α} {x : α} {p q : Prop}

theorem eq_some_iff (h : Restores read x p) : read = some x ↔ p := by
  rw [h, and_iff_left rfl]

theorem congr (h : Restores read x p) (hpq : p ↔ q) : Restores read x q := fun y => by
  rw [h, hpq]

theorem pure (x : α) : Restores (some x) x True := fun y => by
  rw [true_and, Option.some.injEq]

/-- A record is restored field by field. -/
theorem bind {rest : α → Option β} {y : β} (h : Restores read x p) (hrest : Restores (rest x) y q) :
    Restores (read.bind rest) y (p ∧ q) := by
  intro z
  rw [Option.bind_eq_some_iff, and_assoc, ← hrest]
  constructor
  · rintro ⟨w, hw, hz⟩
    obtain ⟨hp, rfl⟩ := (h w).1 hw
    exact ⟨hp, hz⟩
  · rintro ⟨hp, hz⟩
    exact ⟨x, h.eq_some_iff.2 hp, hz⟩

theorem map (f : α → β) (h : Restores read x p) : Restores (read.map f) (f x) p := by
  have hread : Restores (read.bind fun a => some (f a)) (f x) (p ∧ True) := h.bind (pure (f x))
  rw [Option.map_eq_bind]
  exact hread.congr (and_iff_left trivial)

end Restores

/-! ## Scalars -/

/-- Doubles are restored if they are finite. -/
theorem restores_float (x : Float) : Restores (float? (ofFloat x)) x (x.isFinite = true) := by
  intro y
  by_cases h : x.isFinite = true <;> simp [ofFloat, h, float?]

/-- Natural numbers are restored if they have 64 bits. -/
theorem restores_natural (n : Nat) : Restores (natural? (ofNat n)) n (n < Text.wordBound) := by
  have hbound : (n : Int) ≤ (twoPow 64 - 1 : Nat) ↔ n < Text.wordBound := by
    have hpos := twoPow_pos 64
    rw [Int.ofNat_le, Text.wordBound]
    omega
  intro m
  rw [natural?, ofNat, wholeIn?]
  simp only [Int.natCast_nonneg, true_and, hbound]
  by_cases h : n < Text.wordBound <;> simp [h]

theorem restores_text (s : String) : Restores (text? (.str s)) s True := .pure s

theorem restores_bool (b : Bool) : Restores (bool? (.bool b)) b True := .pure b

/-- Things with a name of their own are restored from it. -/
theorem restores_oneOf {α : Type} {named? : String → Option α} {name : α → String}
    (h : ∀ x, named? (name x) = some x) (x : α) :
    Restores (oneOf? named? (.str (name x))) x True := by
  rw [oneOf?, h]
  exact .pure x

/-! ## Arrays and objects -/

/-- Reading all items of a list succeeds exactly if each one reads as the item at its place. -/
theorem mapM_eq_some_iff {α β : Type} {f : α → Option β} {l : List α} {r : List β} :
    l.mapM f = some r ↔ List.Forall₂ (fun a b => f a = some b) l r := by
  induction l generalizing r with
  | nil => simp [eq_comm]
  | cons a l ih =>
    rw [List.mapM_cons, List.forall₂_cons_left_iff]
    simp only [Option.bind_eq_bind, Option.pure_def, Option.bind_eq_some_iff, Option.some.injEq]
    constructor
    · rintro ⟨b, hb, bs, hbs, rfl⟩
      exact ⟨b, bs, hb, ih.1 hbs, rfl⟩
    · rintro ⟨b, bs, hb, hbs, rfl⟩
      exact ⟨b, hb, bs, ih.2 hbs, rfl⟩

/-- A list is restored if each of its items is. -/
theorem restores_mapM {α β : Type} {f : β → Option α} {g : α → β} {p : α → Prop}
    (h : ∀ x, Restores (f (g x)) x (p x)) (l : List α) :
    Restores ((l.map g).mapM f) l (∀ x ∈ l, p x) := by
  intro r
  -- item by item: the condition holds, and what is read is what was written
  simp only [mapM_eq_some_iff, List.forall₂_map_left_iff, h _ _, List.forall₂_and_left]
  rw [List.forall₂_eq_eq_eq]

/-- An array is restored if each of its items is. -/
theorem restores_list {α : Type} {item : Json → Option α} {encode : α → Json} {p : α → Prop}
    (h : ∀ x, Restores (item (encode x)) x (p x)) (l : List α) :
    Restores (list? item (.arr (l.map encode))) l (∀ x ∈ l, p x) := restores_mapM h l

section Entries
variable {κ ν : Type} {key : String → Option κ} {value : Json → Option ν} {name : κ → String}
  {encode : ν → Json} {p : ν → Prop}

theorem entries?_eq_some_iff {members : List (String × Json)} {l : List (κ × ν)} :
    entries? key value (.obj members) = some l ↔
      List.Forall₂ (fun m e => key m.1 = some e.1 ∧ value m.2 = some e.2) members l := by
  rw [entries?, mapM_eq_some_iff]
  constructor
  · refine fun h => h.imp fun m e he => ?_
    split at he
    next k v hk hv => cases he; exact ⟨hk, hv⟩
    next => cases he
  · refine fun h => h.imp fun m e he => ?_
    rw [he.1, he.2]

/-- A text is written as the key that it is. -/
theorem some_id (s : String) : some (id s) = some s := rfl

/-- An object is restored, in its order, if each of its values is. -/
theorem restores_entries (hname : ∀ k, key (name k) = some k)
    (h : ∀ v, Restores (value (encode v)) v (p v)) (l : List (κ × ν)) :
    Restores (entries? key value (.obj (l.map fun e => (name e.1, encode e.2)))) l
      (∀ e ∈ l, p e.2) := by
  refine restores_mapM (fun e => ?_) l
  have hentry := (h e.2).map (Prod.mk e.1)
  rw [hname]
  cases hread : value (encode e.2) with
  | none => rwa [hread] at hentry
  | some v => rwa [hread] at hentry

/-- A sorted map is restored if each of its values is. -/
theorem restores_sortedMap [Ord κ] [Std.TransOrd κ] [Std.LawfulEqOrd κ]
    (hname : ∀ k, key (name k) = some k) (h : ∀ v, Restores (value (encode v)) v (p v))
    (m : SortedMap κ ν) :
    Restores ((entries? key value (.obj (m.entries.map fun e => (name e.1, encode e.2)))).map
      SortedMap.ofList) m (∀ e ∈ m.entries, p e.2) := by
  have hread := (restores_entries hname h m.entries).map SortedMap.ofList
  rwa [SortedMap.ofList_entries] at hread

end Entries

/-! ## Records -/

/-- The members that a record writes for its fields. -/
def present (fields : List (String × Option Json)) : List (String × Json) :=
  fields.filterMap fun f => f.2.map fun j => (f.1, j)

theorem name_mem_of_mem_present {fields : List (String × Option Json)} {m : String × Json}
    (hm : m ∈ present fields) : m.1 ∈ fields.map Prod.fst := by
  obtain ⟨f, hf, hfm⟩ := List.mem_filterMap.1 hm
  obtain ⟨j, -, rfl⟩ := Option.map_eq_some_iff.1 hfm
  exact List.mem_map_of_mem hf

theorem filter_present_of_notMem {fields : List (String × Option Json)} {name : String}
    (h : name ∉ fields.map Prod.fst) : (present fields).filter (fun m => m.1 == name) = [] :=
  List.filter_eq_nil_iff.2 fun _ hm he => h (eq_of_beq he ▸ name_mem_of_mem_present hm)

/-- A field of a record whose field names differ is found where it was written. -/
theorem soleMember?_present {fields : List (String × Option Json)} {f : String × Option Json}
    (hnodup : (fields.map Prod.fst).Nodup) (hf : f ∈ fields) :
    soleMember? f.1 (present fields) = some f.2 := by
  have hfilter : (present fields).filter (fun m => m.1 == f.1) = present [f] := by
    induction fields with
    | nil => exact absurd hf List.not_mem_nil
    | cons g rest ih =>
      obtain ⟨hg, hrest⟩ := List.nodup_cons.1 hnodup
      have hcons : present (g :: rest) = present [g] ++ present rest := by
        rw [present, present, present, ← List.filterMap_append, List.singleton_append]
      rw [hcons, List.filter_append]
      -- the field is the first one, or the first one has another name
      rcases List.mem_cons.1 hf with rfl | hmem
      · rw [filter_present_of_notMem hg, List.append_nil, List.filter_eq_self]
        exact fun m hm => beq_iff_eq.2 (List.mem_singleton.1 (name_mem_of_mem_present hm))
      · have hne : f.1 ∉ [g].map Prod.fst := fun he =>
          hg (List.mem_singleton.1 he ▸ List.mem_map_of_mem hmem)
        rw [filter_present_of_notMem hne, ih hrest hmem, List.nil_append]
  rw [soleMember?, hfilter]
  obtain ⟨name, field⟩ := f
  cases field <;> rfl

/-- The fields of a record are read as they were written. -/
theorem fields?_ofFields {names : List String} (fields : List (String × Option Json))
    (hnames : fields.map Prod.fst = names) (hnodup : names.Nodup) :
    fields? names (ofFields fields) = some (fields.map Prod.snd) := by
  subst hnames
  rw [ofFields, fields?, mapM_eq_some_iff, List.forall₂_map_left_iff, List.forall₂_map_right_iff,
    List.forall₂_same]
  exact fun f hf => soleMember?_present hnodup hf

/-- The fields of a record that leaves out none. -/
theorem fields?_obj {names : List String} (members : List (String × Json))
    (hnames : members.map Prod.fst = names) (hnodup : names.Nodup) :
    fields? names (.obj members) = some (members.map fun m => some m.2) := by
  have hobj : Json.obj members = ofFields (members.map fun m => (m.1, some m.2)) := by
    simp [ofFields, List.filterMap_map]
  have hnames' : (members.map fun m => (m.1, some m.2)).map Prod.fst = names := by
    rw [List.map_map]
    exact hnames
  rw [hobj, fields?_ofFields _ hnames' hnodup, List.map_map]
  rfl

/-- A field that may be missing is restored if its value, when there is one, is. -/
theorem restores_optional {α : Type} {value : Json → Option α} {encode : α → Json} {p : α → Prop}
    (hnull : ∀ x, encode x ≠ .null) (h : ∀ x, Restores (value (encode x)) x (p x))
    (field : Option α) :
    Restores (optional? value (field.map encode)) field (∀ x ∈ field, p x) := by
  cases field with
  | none => exact (Restores.pure none).congr (by simp)
  | some x =>
    -- a written value is never null, which would be taken for a missing one
    have hread : nullable? value (encode x) = (value (encode x)).map some := by
      rw [nullable?]
      exact hnull x
    have hsome := (h x).map some
    rw [← hread] at hsome
    exact hsome.congr (by simp)

end Lightpath.Json
