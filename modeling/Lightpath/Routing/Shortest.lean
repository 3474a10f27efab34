import Lightpath.Routing.Graph

/-!
# Shortest routes — one search through a weighted graph

`Graph.shortest?` labels devices with the least cost known so far and the link that gives it. Devices
wait in a queue, cheapest first and in the order of discovery among equals. A device taken from the
queue with a cost above its label is outdated and skipped; otherwise its links are tried. The search
ends when the destination is taken or the queue is empty, and the route is read off the labels
backwards.

Links and devices can be closed to a search. The source is never entered.
-/

namespace Lightpath

/-- The best way to a device known so far. -/
structure Label (W : Type) where
  cost : W
  /-- The last link of the way; the source has none. -/
  via : Option Link

/-- The state of a search. -/
structure Search (W : Type) where
  labels : SortedMap DeviceId (Label W)
  /-- The devices to look at, cheapest first. -/
  queue : List (W × DeviceId)

/-- What a search must not use. -/
structure Closed where
  links : List Ends
  devices : List DeviceId

/-- A list of links with its cost. -/
structure Weighted (W : Type) where
  links : List Link
  cost : W

variable {W : Type} [Cost W]

/-- Puts an entry into a queue, behind the entries that are not dearer. -/
def enqueue (e : W × DeviceId) : List (W × DeviceId) → List (W × DeviceId)
  | [] => [e]
  | x :: rest => if Cost.order e.1 x.1 = .lt then e :: x :: rest else x :: enqueue e rest

namespace Search

/-- The search that knows only its source. -/
def start (src : DeviceId) : Search W :=
  ⟨SortedMap.empty.insert src ⟨Cost.zero, none⟩, [(Cost.zero, src)]⟩

/-- Whether a link may be used in a search from `src`. -/
def mayUse (closed : Closed) (src : DeviceId) (l : Link) : Bool :=
  !(closed.devices.contains l.dst.device || l.dst.device == src || closed.links.contains l.ends)

/-- Whether `cost` improves on the label of a device. -/
def improves (s : Search W) (id : DeviceId) (cost : W) : Bool :=
  match s.labels.find? id with
  | none => true
  | some label => Cost.less cost label.cost

/-- Tries a link from a device reached at `cost`. -/
def relax (closed : Closed) (src : DeviceId) (cost : W) (s : Search W) (edge : Link × W) :
    Search W :=
  let next := edge.1.dst.device
  let nextCost := Cost.add cost edge.2
  if mayUse closed src edge.1 && s.improves next nextCost then
    ⟨s.labels.insert next ⟨nextCost, some edge.1⟩, enqueue (nextCost, next) s.queue⟩
  else s

/-- Whether a queue entry is dearer than the label of its device. -/
def outdated (s : Search W) (id : DeviceId) (cost : W) : Bool :=
  (s.labels.find? id).any (fun label => Cost.less label.cost cost)

/-- Tries every link of a device reached at `cost`. -/
def expand (g : Graph W) (closed : Closed) (src id : DeviceId) (cost : W) (s : Search W) : Search W :=
  (g.leaving id).foldl (relax closed src cost) s

/-- Takes one device from the queue. There is no further step once the destination comes first or the
queue is empty. -/
def step? (g : Graph W) (closed : Closed) (src dst : DeviceId) (s : Search W) :
    Option (Search W) :=
  match s.queue with
  | [] => none
  | (cost, id) :: rest =>
    if id = dst then none
    else
      let s := { s with queue := rest }
      if s.outdated id cost then some s else some (s.expand g closed src id cost)

/-- Takes devices from the queue as long as there is a step; `fuel` bounds their number. -/
def run (g : Graph W) (closed : Closed) (src dst : DeviceId) : Nat → Search W → Search W
  | 0, s => s
  | fuel + 1, s =>
    match s.step? g closed src dst with
    | none => s
    | some s => run g closed src dst fuel s

/-- The links from `src` to a device as the labels tell, in front of `after`; `fuel` bounds their
number. -/
def trace? (s : Search W) (src : DeviceId) : Nat → DeviceId → List Link → Option (List Link)
  | fuel, id, after =>
    if id = src then some after
    else
      match fuel, (s.labels.find? id).bind Label.via with
      | fuel + 1, some l => trace? s src fuel l.src.device (l :: after)
      | _, _ => none

end Search

namespace Graph

/-- The search from one device to another when it has come to its end.

Every queue entry comes from a label that improved. As long as no cycle lowers a cost, the ways
behind these labels differ in their sets of links, so there are no more of them than there are such
sets. -/
def explore (g : Graph W) (closed : Closed) (src dst : DeviceId) : Search W :=
  Search.run g closed src dst (twoPow g.edges.length) (Search.start src)

/-- The cheapest route between two different devices with its cost; among equals the one discovered
first. A way read off the labels visits no more devices than have labels. -/
def shortest? (g : Graph W) (closed : Closed) (src dst : DeviceId) : Option (Weighted W) :=
  let s := g.explore closed src dst
  match s.labels.find? dst with
  | none => none
  | some label =>
    (s.trace? src s.labels.size dst []).map fun links => ⟨links, label.cost⟩

end Graph

end Lightpath
