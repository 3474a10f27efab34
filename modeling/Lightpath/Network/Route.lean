import Lightpath.Failure
import Lightpath.Network.Link
import Lightpath.Text.Decimal

/-!
# Routes — contiguous chains of links

A `Route` holds at least one link, and every link starts on the device where the one before it
ends; both are part of the type. `Route.ofLinks` checks them. The mirror of a route visits the same
connect points in the opposite order (`Route.hops_reverse`).
-/

namespace Lightpath

/-- Whether every link of a list starts on the device where the one before it ends. -/
def Contiguous : List Link → Prop
  | a :: b :: rest => a.dst.device = b.src.device ∧ Contiguous (b :: rest)
  | _ => True

/-- The first two neighbours of a list that do not meet in a device. -/
def firstGap? : List Link → Option (Link × Link)
  | a :: b :: rest => if a.dst.device = b.src.device then firstGap? (b :: rest) else some (a, b)
  | _ => none

theorem contiguous_of_firstGap? : ∀ {links : List Link}, firstGap? links = none → Contiguous links
  | [], _ => trivial
  | [_], _ => trivial
  | a :: b :: rest, h => by
    by_cases hab : a.dst.device = b.src.device
    · rw [firstGap?, if_pos hab] at h
      exact ⟨hab, contiguous_of_firstGap? h⟩
    · simp [firstGap?, hab] at h

theorem firstGap?_of_contiguous : ∀ {links : List Link}, Contiguous links → firstGap? links = none
  | [], _ => rfl
  | [_], _ => rfl
  | a :: b :: rest, h => by
    rw [firstGap?, if_pos h.1]
    exact firstGap?_of_contiguous h.2

theorem contiguous_append_singleton {l : Link} : ∀ {links : List Link}, Contiguous links →
    (∀ last, links.getLast? = some last → last.dst.device = l.src.device) →
    Contiguous (links ++ [l])
  | [], _, _ => trivial
  | [a], _, h => ⟨h a rfl, trivial⟩
  | a :: b :: rest, hc, h =>
    ⟨hc.1, @contiguous_append_singleton l (b :: rest) hc.2 fun last hl =>
      h last (by rw [List.getLast?_cons_cons]; exact hl)⟩

/-- The mirror images of the links of a chain, last one first. -/
def mirrored (links : List Link) : List Link := (links.map Link.reversed).reverse

theorem getLast?_mirrored (links : List Link) :
    (mirrored links).getLast? = links.head?.map Link.reversed := by
  simp [mirrored]

theorem contiguous_mirrored : ∀ {links : List Link}, Contiguous links → Contiguous (mirrored links)
  | [], _ => trivial
  | [_], _ => trivial
  | a :: b :: rest, h => by
    have ih := contiguous_mirrored h.2
    have hsplit : mirrored (a :: b :: rest) = mirrored (b :: rest) ++ [a.reversed] := by
      simp [mirrored]
    rw [hsplit]
    refine contiguous_append_singleton ih fun last hl => ?_
    rw [getLast?_mirrored] at hl
    cases hl
    exact h.1.symm

/-- A way through the network with its weight. The weight is derived data and does not count for
the identity of the route. -/
structure Route where
  links : List Link
  /-- The sum of the link weights, in km of fiber. -/
  weight : Float
  nonempty : links ≠ []
  contiguous : Contiguous links

namespace Route

/-- The route over a list of links. -/
def ofLinks (links : List Link) (weight : Float) : Except Failure Route :=
  if hne : links = [] then .error .emptyRoute
  else
    match hgap : firstGap? links with
    | some (a, b) => .error (.brokenRoute a.ends b.ends)
    | none => .ok ⟨links, weight, hne, contiguous_of_firstGap? hgap⟩

/-- The route over a single link. -/
def single (l : Link) (weight : Float) : Route := ⟨[l], weight, by simp, trivial⟩

instance : Inhabited Route := ⟨single default 0.0⟩

/-- Where the route starts. -/
def src (r : Route) : ConnectPoint := (r.links.head r.nonempty).src

/-- Where the route ends. -/
def dst (r : Route) : ConnectPoint := (r.links.getLast r.nonempty).dst

/-- The connect points along a list of links: both ends of every link in turn. -/
def hopsOf (links : List Link) : List ConnectPoint := links.flatMap (fun l => [l.src, l.dst])

/-- Every connect point of the route in order of travel. -/
def hops (r : Route) : List ConnectPoint := hopsOf r.links

/-- The devices of the route in order of travel, a device not repeated next to itself. -/
def devices (r : Route) : List DeviceId :=
  r.links.foldl
    (fun visited l =>
      if visited.getLast? = some l.dst.device then visited else visited ++ [l.dst.device])
    [r.src.device]

/-- The route travelled backwards: every link seen from its other end, the weight kept. -/
def reverse (r : Route) : Route :=
  ⟨mirrored r.links, r.weight, by simpa [mirrored] using r.nonempty,
    contiguous_mirrored r.contiguous⟩

/-- Whether two routes travel over the same links. -/
def same (r s : Route) : Bool := r.links == s.links

/-- Whether `r` visits the connect points of `s` in the opposite order. -/
def isReverseOf (r s : Route) : Bool := r.hops.reverse == s.hops

/-- The mirror of a route visits its connect points backwards. -/
theorem hopsOf_mirrored (links : List Link) : hopsOf (mirrored links) = (hopsOf links).reverse := by
  induction links with
  | nil => rfl
  | cons l rest ih =>
    have hsplit : mirrored (l :: rest) = mirrored rest ++ [l.reversed] := by simp [mirrored]
    rw [hsplit, hopsOf, List.flatMap_append]
    change hopsOf (mirrored rest) ++ hopsOf [l.reversed] = (hopsOf (l :: rest)).reverse
    rw [ih]
    simp [hopsOf]

@[simp]
theorem hops_reverse (r : Route) : r.reverse.hops = r.hops.reverse := hopsOf_mirrored r.links

/-- The written form: the links in brackets and the weight with three places. -/
def display (r : Route) : String :=
  "[" ++ String.intercalate ", " (r.links.map Link.display) ++ "] (" ++ Text.fixed 3 r.weight ++ ")"

end Route

end Lightpath
