import Lightpath.Proofs.Text.Bytes
import Lightpath.Proofs.Text.Numeral
import Lightpath.Quality.Command
import Mathlib.Data.List.Induction

/-!
# Answers — what a printed answer says of each route

A tool is asked for a route under a name of its own (`QualityRequest.askedNames`), and what it answers for
the route stands in the object under this name. Several keys of the object may name one mode, as blanks are
allowed in them; of those with a number the last one in the order of bytes counts (`AnswersMode`).

`MapsBack` says for any printed text what is read from it: a failure, if it is no document with an object
of services, and otherwise a map for each route, made of the last keys of the asked modes. What else is
printed has no influence on the map of a route.
-/

namespace Lightpath

/-! ## Maps made of entries -/

namespace SortedMap

variable {κ κ' ν ν' : Type} [Ord κ] [Std.TransOrd κ] [Std.LawfulEqOrd κ] [Ord κ'] [Std.TransOrd κ']
  [Std.LawfulEqOrd κ']

/-- Where the entries of an ascending list are turned into entries of another map, the greatest one of
those that give a key counts. -/
theorem find?_ofList_filterMap {l : List (κ × ν)} (hl : l.Pairwise fun a b => compare a.1 b.1 = .lt)
    (f : κ × ν → Option (κ' × ν')) {k : κ'} {v : ν'} :
    (ofList (l.filterMap f)).find? k = some v ↔ ∃ e ∈ l, f e = some (k, v) ∧
      ∀ e' ∈ l, ∀ w, f e' = some (k, w) → compare e.1 e'.1 ≠ .lt := by
  classical
  induction l using List.reverseRecOn with
  | nil => simp [ofList]
  | append_singleton l x ih =>
    obtain ⟨hl, -, hlast⟩ := List.pairwise_append.1 hl
    have hlast : ∀ e ∈ l, compare e.1 x.1 = .lt := fun e he => hlast e he x List.mem_cons_self
    have hself : compare x.1 x.1 ≠ .lt := by simp [Std.ReflCmp.compare_self]
    have hof : [x].filterMap f = (f x).toList := by cases hfx : f x <;> simp [hfx]
    rw [List.filterMap_append, hof]
    by_cases hx : ∃ w, f x = some (k, w)
    · -- the last entry gives the key, so it counts
      obtain ⟨w, hw⟩ := hx
      rw [hw, Option.toList_some, find?_ofList_concat, if_pos rfl]
      constructor
      · rintro ⟨⟩
        refine ⟨x, List.mem_concat_self, hw, fun e' he' _ _ => ?_⟩
        rcases List.mem_append.1 he' with he' | he'
        · rw [Std.OrientedCmp.gt_of_lt (hlast e' he')]
          exact Ordering.noConfusion
        · exact List.mem_singleton.1 he' ▸ hself
      · rintro ⟨e, he, hfe, hgreatest⟩
        rcases List.mem_append.1 he with he | he
        · exact absurd (hlast e he) (hgreatest x List.mem_concat_self w hw)
        · rw [List.mem_singleton.1 he, hw] at hfe
          cases hfe
          rfl
    · -- the last entry gives another key or none, and only those before it matter
      have hbefore : (ofList (l.filterMap f ++ (f x).toList)).find? k =
          (ofList (l.filterMap f)).find? k := by
        cases hfx : f x with
        | none => rw [Option.toList_none, List.append_nil]
        | some e =>
          rw [Option.toList_some, find?_ofList_concat, if_neg]
          rintro rfl
          exact hx ⟨e.2, hfx⟩
      rw [hbefore, ih hl]
      constructor
      · rintro ⟨e, he, hfe, hgreatest⟩
        refine ⟨e, List.mem_append_left _ he, hfe, fun e' he' w hw => ?_⟩
        rcases List.mem_append.1 he' with he' | he'
        · exact hgreatest e' he' w hw
        · exact absurd ⟨w, List.mem_singleton.1 he' ▸ hw⟩ hx
      · rintro ⟨e, he, hfe, hgreatest⟩
        rcases List.mem_append.1 he with he | he
        · exact ⟨e, he, hfe, fun e' he' => hgreatest e' (List.mem_append_left _ he')⟩
        · exact absurd ⟨v, List.mem_singleton.1 he ▸ hfe⟩ hx

/-- A map made of the members of an object holds the last value of each name. -/
theorem find?_ofList_members (members : List (String × Json)) (name : String) :
    (ofList members).find? name = Json.lastMember? name members := by
  induction members using List.reverseRecOn with
  | nil => rfl
  | append_singleton members m ih =>
    rw [find?_ofList_concat, ih, Json.lastMember?, Json.lastMember?, List.reverse_append,
      List.reverse_singleton, List.singleton_append, List.find?_cons]
    by_cases hm : m.1 = name
    · subst hm
      simp
    · have hbeq : (m.1 == name) = false := beq_eq_false_iff_ne.2 hm
      rw [if_neg (Ne.symm hm), hbeq]

end SortedMap

/-! ## Names -/

/-- Every route has a service name of its own. -/
theorem serviceName_injective : Function.Injective serviceName := by
  intro i j h
  have hdigits : (toString (i + 1)).toList = (toString (j + 1)).toList := by
    have hlist := congrArg String.toList h
    rwa [serviceName, serviceName, String.toList_append, String.toList_append,
      List.append_cancel_left_eq] at hlist
  have hnumber : some (i + 1) = some (j + 1) := by
    rw [← Text.digits?_toString, ← Text.digits?_toString, hdigits]
  exact Nat.succ.inj (Option.some.inj hnumber)

namespace QualityRequest

/-- The names that the document of the services gives to the routes, in their order. -/
def askedNames (q : QualityRequest) : List (Option String) :=
  match q.services.member? "services" with
  | some (.arr records) => records.map fun r => (r.member? "service-name").bind Json.text?
  | _ => []

/-- The services asked about are named by the positions of the routes. -/
theorem askedNames_eq (q : QualityRequest) :
    q.askedNames = (List.range q.routes.length).map fun i => some (serviceName i) := by
  have hname (i : Nat) (r : Route) :
      ((serviceRecord i r).member? "service-name").bind Json.text? = some (serviceName i) := rfl
  have hmember : q.services.member? "services" = some (.arr (q.routes.mapIdx serviceRecord)) := rfl
  rw [askedNames, hmember]
  refine List.ext_getElem (by simp) fun i hi _ => ?_
  simp [hname]

end QualityRequest

/-! ## Maps -/

/-- The number under a key in the object that services have under a name. -/
def answeredNumber? (services : List (String × Json)) (name key : String) : Option Float :=
  match Json.lastMember? name services with
  | some (.obj record) => (Json.lastMember? key record).bind Json.float?
  | _ => none

/-- Services say of a mode under a name: the number is under a key that names the mode, and no such key
with a number follows in the order of bytes. -/
def AnswersMode (services : List (String × Json)) (name : String) (m : Mode) (v : Float) : Prop :=
  ∃ key, Mode.read? key = some m ∧ answeredNumber? services name key = some v ∧
    ∀ key', Mode.read? key' = some m → (answeredNumber? services name key').isSome = true →
      ¬ Text.bytes key < Text.bytes key'

/-- What services say of a mode rests on the numbers under the keys that name it. -/
theorem answersMode_congr {services services' : List (String × Json)} {name : String} {m : Mode}
    {v : Float} (h : ∀ key, Mode.read? key = some m →
      answeredNumber? services name key = answeredNumber? services' name key) :
    AnswersMode services name m v ↔ AnswersMode services' name m v := by
  refine exists_congr fun key => and_congr_right fun hmode => ?_
  rw [h key hmode]
  refine and_congr_right fun _ => forall_congr' fun key' => forall_congr' fun hmode' => ?_
  rw [h key' hmode']

theorem compare_ne_lt_iff {s t : String} :
    compare s t ≠ .lt ↔ ¬ Text.bytes s < Text.bytes t := by
  rw [Text.bytes_lt_iff, ne_eq, compare_lt_iff_lt]

/-- A member of a record gives an asked mode a value if its key names the mode and its value is a number. -/
theorem serviceOsnr_eq_ofList (modes : List Mode) (record : List (String × Json)) :
    ∃ gives : String × Json → Option (Mode × Float),
      serviceOsnr modes record = SortedMap.ofList ((SortedMap.ofList record).entries.filterMap gives) ∧
        ∀ e m v, gives e = some (m, v) ↔ m ∈ modes ∧ Mode.read? e.1 = some m ∧ e.2.float? = some v := by
  refine ⟨_, rfl, fun e m v => ?_⟩
  constructor
  · intro h
    split at h
    next m' osnr hmode hosnr =>
      split at h
      next hmem =>
        cases h
        exact ⟨hmem, hmode, hosnr⟩
      next => cases h
    next => cases h
  · rintro ⟨hmem, hmode, hosnr⟩
    simp only [hmode, hosnr]
    exact if_pos hmem

/-- What a record gives a mode is the number under the last key that names it. -/
theorem find?_serviceOsnr {modes : List Mode} {record : List (String × Json)} {m : Mode} {v : Float} :
    (serviceOsnr modes record).find? m = some v ↔ m ∈ modes ∧
      ∃ key, Mode.read? key = some m ∧ (Json.lastMember? key record).bind Json.float? = some v ∧
        ∀ key', Mode.read? key' = some m →
          ((Json.lastMember? key' record).bind Json.float?).isSome = true →
          ¬ Text.bytes key < Text.bytes key' := by
  have hsorted := (SortedMap.ofList record).sorted
  have hentry (e : String × Json) :
      e ∈ (SortedMap.ofList record).entries ↔ Json.lastMember? e.1 record = some e.2 := by
    rw [← SortedMap.find?_ofList_members, SortedMap.find?_eq_some_iff]
  obtain ⟨gives, heq, hgives⟩ := serviceOsnr_eq_ofList modes record
  rw [heq, SortedMap.find?_ofList_filterMap hsorted]
  constructor
  · rintro ⟨⟨key, j⟩, he, hgive, hlast⟩
    obtain ⟨hmem, hmode, hosnr⟩ := (hgives _ _ _).1 hgive
    refine ⟨hmem, key, hmode, Option.bind_eq_some_iff.2 ⟨j, (hentry _).1 he, hosnr⟩, ?_⟩
    intro key' hmode' hsome
    obtain ⟨w, hw⟩ := Option.isSome_iff_exists.1 hsome
    obtain ⟨j', hj', hw⟩ := Option.bind_eq_some_iff.1 hw
    have hgive' := (hgives (key', j') m w).2 ⟨hmem, hmode', hw⟩
    exact compare_ne_lt_iff.1 (hlast (key', j') ((hentry _).2 hj') w hgive')
  · rintro ⟨hmem, key, hmode, hnumber, hlast⟩
    obtain ⟨j, hj, hosnr⟩ := Option.bind_eq_some_iff.1 hnumber
    refine ⟨(key, j), (hentry _).2 hj, (hgives _ _ _).2 ⟨hmem, hmode, hosnr⟩, ?_⟩
    intro e' he' w hgive'
    obtain ⟨-, hmode', hw⟩ := (hgives _ _ _).1 hgive'
    refine compare_ne_lt_iff.2 (hlast e'.1 hmode' ?_)
    rw [(hentry _).1 he', Option.bind_some, hw]
    rfl

/-- What the services of an answer give a route is what they say of the asked modes under its name. -/
theorem find?_routeAnswer {modes : List Mode} {services : List (String × Json)} {i : Nat} {m : Mode}
    {v : Float} : (routeAnswer modes services i).find? m = some v ↔
      m ∈ modes ∧ AnswersMode services (serviceName i) m v := by
  unfold routeAnswer
  split
  next record hrecord =>
    simp only [AnswersMode, answeredNumber?, hrecord]
    exact find?_serviceOsnr
  next hnone =>
    have hnumber (key : String) : answeredNumber? services (serviceName i) key = none := by
      unfold answeredNumber?
      split
      next record hrecord => exact absurd hrecord (hnone record)
      next => rfl
    simp [AnswersMode, hnumber]

/-- What is read from a printed text for a number of routes. -/
structure MapsBack (output : String) (count : Nat) (modes : List Mode) : Prop where
  /-- Nothing is read exactly if the text is no document, or one without an object of services. -/
  fails_iff : (∃ f, readAnswer output count modes = .error f ∧ f.kind = .calculation) ↔
    Json.load? output = none ∨ ∃ root, Json.load? output = some root ∧
      ∀ services, root.member? "services" ≠ some (.obj services)
  /-- Otherwise there is a map for each route: what the services say of the asked modes under its name. -/
  answers : ∀ root services, Json.load? output = some root →
    root.member? "services" = some (.obj services) → ∃ maps,
      readAnswer output count modes = .ok maps ∧ maps.length = count ∧
      ∀ i (hi : i < maps.length) m v, maps[i].find? m = some v ↔
        m ∈ modes ∧ AnswersMode services (serviceName i) m v
  /-- Another text has the same map for a route if both have the same numbers under its name and the keys
  that name asked modes. -/
  influence : ∀ output' root services root' services', Json.load? output = some root →
    root.member? "services" = some (.obj services) → Json.load? output' = some root' →
    root'.member? "services" = some (.obj services') → ∀ i,
      (∀ key, ∀ m ∈ modes, Mode.read? key = some m →
        answeredNumber? services (serviceName i) key =
          answeredNumber? services' (serviceName i) key) →
      ∀ maps maps', readAnswer output count modes = .ok maps →
        readAnswer output' count modes = .ok maps' → maps[i]? = maps'[i]?
  /-- The names are those under which a tool is asked for as many routes, and no two routes share one. -/
  names : Function.Injective serviceName ∧ ∀ q : QualityRequest, q.routes.length = count →
    q.askedNames = (List.range count).map fun i => some (serviceName i)

/-- What a text with services is read as. -/
theorem readAnswer_of_services {output : String} {root : Json} {services : List (String × Json)}
    (hroot : Json.load? output = some root) (hservices : root.member? "services" = some (.obj services))
    (count : Nat) (modes : List Mode) : readAnswer output count modes =
      .ok ((List.range count).map (routeAnswer modes services)) := by
  simp only [readAnswer, hroot, hservices]

/-- What is printed is mapped back to the routes by the names of the services and the modes that the keys
name. -/
theorem answers_mapped_back (output : String) (count : Nat) (modes : List Mode) :
    MapsBack output count modes := by
  constructor
  case fails_iff =>
    constructor
    · rintro ⟨f, hf, -⟩
      unfold readAnswer at hf
      split at hf
      next hnone => exact .inl hnone
      next root hroot =>
        split at hf
        next => cases hf
        next hservices => exact .inr ⟨root, hroot, hservices⟩
    · rintro (hnone | ⟨root, hroot, hservices⟩)
      · exact ⟨.answerMalformed, by simp only [readAnswer, hnone], rfl⟩
      · refine ⟨.answerWithoutServices, ?_, rfl⟩
        rw [readAnswer, hroot]
        dsimp only
        split
        next services hobject => exact absurd hobject (hservices services)
        next => rfl
  case answers =>
    intro root services hroot hservices
    refine ⟨_, readAnswer_of_services hroot hservices count modes, by simp, fun i hi m v => ?_⟩
    rw [List.getElem_map, List.getElem_range]
    exact find?_routeAnswer
  case influence =>
    intro output' root services root' services' hroot hservices hroot' hservices' i hsame maps maps'
      hmaps hmaps'
    rw [readAnswer_of_services hroot hservices] at hmaps
    rw [readAnswer_of_services hroot' hservices'] at hmaps'
    cases hmaps
    cases hmaps'
    have hmap : routeAnswer modes services i = routeAnswer modes services' i := by
      refine SortedMap.ext_find? fun m => Option.ext fun v => ?_
      rw [find?_routeAnswer, find?_routeAnswer]
      exact and_congr_right fun hm => answersMode_congr fun key => hsame key m hm
    rw [List.getElem?_map, List.getElem?_map]
    by_cases hi : i < count
    · rw [List.getElem?_range hi]
      exact congrArg some hmap
    · rw [List.getElem?_eq_none (by simpa using hi)]
      rfl
  case names =>
    refine ⟨serviceName_injective, fun q hq => ?_⟩
    rw [q.askedNames_eq, hq]

/-- An answer in which three keys name the same mode for the first route, the last one without a number;
the second route has no object, and no route has the third name. -/
def printedAnswer : String :=
  "\x7b\"services\": \x7b" ++
    "\"path-1\": \x7b\"R100G/dp-qpsk\": 21, \" R100G/ dp-qpsk\": 20, \"R100G/dp-qpsk \": \"?\"\x7d, " ++
    "\"path-2\": 19, \"path-9\": \x7b\"R100G/dp-qpsk\": 3\x7d\x7d\x7d"

/-- Of this answer the first route gets the number under the last key that has one, although another one is
written behind it, and the second route gets none. -/
theorem answers_mapped_back_printed : MapsBack printedAnswer 2 [⟨.r100G, .dpQpsk⟩] ∧
    (readAnswer printedAnswer 2 [⟨.r100G, .dpQpsk⟩]).toOption.map
      (fun maps => maps.map fun o => o.entries.map fun e => (e.1, e.2.toBits)) =
    some [[(⟨.r100G, .dpQpsk⟩, (21.0 : Float).toBits)], []] := by
  refine ⟨answers_mapped_back _ _ _, ?_⟩
  decide +kernel

end Lightpath
