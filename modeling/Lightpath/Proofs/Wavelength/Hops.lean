import Lightpath.Proofs.Wavelength.Indexes

/-!
# Hops — what the look-up by hop and channel finds

The index by hop and channel keeps one id under a key. A path that comes takes over the keys of its
hops, whoever stood there, and a path that goes clears them, whoever stands there. So what is found is
decided by the last move over the key (`lastMove?`): the path that came is found, and after a path went
nothing is found, although another stored path may use the channel on that hop
(`hop_lookup_follows_moves`). That paths of other groups are hidden in this way is
`removed_group_hides_path`.
-/

namespace Lightpath

namespace PathStore

/-! ## Moves -/

/-- A path comes into the indexes of a store, or goes from them. -/
inductive Move where
  | comes (p : WavelengthPath)
  | goes (p : WavelengthPath)

/-- The path that moves. -/
def Move.path : Move → WavelengthPath
  | .comes p => p
  | .goes p => p

/-- The path of a move that comes. -/
def Move.arrival? : Move → Option WavelengthPath
  | .comes p => some p
  | .goes _ => none

/-- The moves of a call, in order. An updated path goes as it was and comes as it is to be. -/
def Call.moves (s : PathStore) : Call → List Move
  | .add paths => (s.putAll paths).2.map .comes
  | .update p =>
    match s.get? p.id with
    | none => []
    | some prev => [.goes prev, .comes p]
  | .removeGroup group => (s.getGroup group).map .goes
  | .issueGroup => []
  | .releaseGroup _ => []

/-- The moves of a sequence of calls, in order. -/
def moves (s : PathStore) : List Call → List Move
  | [] => []
  | c :: rest => c.moves s ++ (c.run s).moves rest

/-- The last move of a path that has the channel on the hop. -/
def lastMove? (moves : List Move) (h : HopChannel) : Option Move :=
  moves.reverse.find? fun m => h ∈ hopChannels m.path

theorem mem_hopChannels {cp : ConnectPoint} {signal : Signal} {p : WavelengthPath} :
    ⟨cp, signal⟩ ∈ hopChannels p ↔ cp ∈ p.leg.route.hops ∧ p.signal = signal := by
  rw [hopChannels, List.mem_map]
  constructor
  · rintro ⟨cp', hcp, heq⟩
    cases heq
    exact ⟨hcp, rfl⟩
  · rintro ⟨hcp, rfl⟩
    exact ⟨cp, hcp, rfl⟩

theorem mem_hopChannels_of_lastMove? {moves : List Move} {h : HopChannel} {m : Move}
    (hm : lastMove? moves h = some m) : h ∈ hopChannels m.path := by
  simpa using List.find?_some hm

theorem lastMove?_snoc (moves : List Move) (m : Move) (h : HopChannel) :
    lastMove? (moves ++ [m]) h = if h ∈ hopChannels m.path then some m else lastMove? moves h := by
  rw [lastMove?, List.reverse_append, List.reverse_singleton, List.singleton_append, List.find?_cons]
  by_cases hm : h ∈ hopChannels m.path <;> simp [hm, lastMove?]

/-! ## The index follows the moves -/

/-- The index by hop and channel holds the id of the path that came last, unless a path went since. The
path that came last is stored, and over the hops of every stored path there was a move. -/
structure Follows (byHop : SortedMap HopChannel Nat) (paths : List WavelengthPath)
    (moves : List Move) : Prop where
  found : ∀ h, byHop.find? h = ((lastMove? moves h).bind Move.arrival?).map WavelengthPath.id
  stored : ∀ h p, lastMove? moves h = some (.comes p) → p ∈ paths
  moved : ∀ p ∈ paths, ∀ h ∈ hopChannels p, lastMove? moves h ≠ none

variable {byHop : SortedMap HopChannel Nat} {paths paths' : List WavelengthPath} {moves : List Move}
  {p : WavelengthPath}

theorem find?_foldl_insert (m : SortedMap HopChannel Nat) (keys : List HopChannel) (id : Nat)
    (h : HopChannel) : (keys.foldl (fun m k => m.insert k id) m).find? h =
      if h ∈ keys then some id else m.find? h := by
  induction keys generalizing m with
  | nil => simp
  | cons k rest ih =>
    rw [List.foldl_cons, ih, SortedMap.find?_insert]
    by_cases hk : h = k <;> simp [hk]

theorem lastMove?_ne_none_snoc {h : HopChannel} (hmoves : lastMove? moves h ≠ none) (m : Move) :
    lastMove? (moves ++ [m]) h ≠ none := by
  rw [lastMove?_snoc]
  split
  · simp
  · exact hmoves

/-- A path that comes takes over its hops. -/
theorem Follows.comes (h : Follows byHop paths moves) (hpaths : ∀ q, q ∈ paths' ↔ q = p ∨ q ∈ paths) :
    Follows ((hopChannels p).foldl (fun m k => m.insert k p.id) byHop) paths' (moves ++ [.comes p]) := by
  constructor
  case found =>
    intro k
    rw [find?_foldl_insert, lastMove?_snoc, Move.path]
    split
    · rfl
    · exact h.found k
  case stored =>
    intro k q hq
    rw [lastMove?_snoc] at hq
    split at hq
    · cases hq
      exact (hpaths _).2 (.inl rfl)
    · exact (hpaths q).2 (.inr (h.stored k q hq))
  case moved =>
    intro q hq k hk
    rcases (hpaths q).1 hq with rfl | hq
    · rw [lastMove?_snoc, Move.path, if_pos hk]
      simp
    · exact lastMove?_ne_none_snoc (h.moved q hq k hk) _

/-- A path that goes clears its hops, whoever came last. -/
theorem Follows.goes (h : Follows byHop paths moves)
    (hpaths : ∀ q, q ∈ paths' ↔ q ∈ paths ∧ q ≠ p) :
    Follows ((hopChannels p).foldl SortedMap.erase byHop) paths' (moves ++ [.goes p]) := by
  constructor
  case found =>
    intro k
    rw [SortedMap.find?_foldl_erase, lastMove?_snoc, Move.path]
    split
    · rfl
    · exact h.found k
  case stored =>
    intro k q hq
    rw [lastMove?_snoc] at hq
    split at hq
    · cases hq
    next hk =>
      -- the path that came last over `k` is not the one that goes, which has no such hop
      refine (hpaths q).2 ⟨h.stored k q hq, ?_⟩
      rintro rfl
      have hmem := mem_hopChannels_of_lastMove? hq
      exact hk hmem
  case moved =>
    intro q hq k hk
    exact lastMove?_ne_none_snoc (h.moved q ((hpaths q).1 hq).1 k hk) _

variable {s : PathStore}

theorem Follows.putAll (hs : s.Coherent) (h : Follows s.byHop s.toList moves)
    (paths : List WavelengthPath) :
    Follows (s.putAll paths).1.byHop (s.putAll paths).1.toList
      (moves ++ (s.putAll paths).2.map .comes) := by
  induction paths generalizing s moves with
  | nil =>
    rw [show (s.putAll []).2.map Move.comes = [] from rfl, List.append_nil]
    exact h
  | cons p rest ih =>
    have hid : s.lastPathId < ({ p with id := s.lastPathId + 1 } : WavelengthPath).id :=
      Nat.lt_succ_self _
    have hnext := ih (hs.put hid) (h.comes (hs.mem_toList_put hid))
    rw [List.append_assoc] at hnext
    exact hnext

theorem Follows.discard (hs : s.Coherent) (h : Follows s.byHop s.toList moves) (hp : p ∈ s.toList) :
    Follows (s.discard p).byHop (s.discard p).toList (moves ++ [.goes p]) := by
  apply h.goes
  intro q
  rw [hs.mem_toList_discard]
  exact and_congr_right fun hq => not_congr (hs.id_eq_iff hq hp)

theorem Follows.foldl_discard (hs : s.Coherent) (h : Follows s.byHop s.toList moves)
    {paths : List WavelengthPath} (hpaths : paths.Pairwise (fun p q => p.id < q.id))
    (hmem : ∀ p ∈ paths, p ∈ s.toList) :
    Follows (paths.foldl PathStore.discard s).byHop (paths.foldl PathStore.discard s).toList
      (moves ++ paths.map .goes) := by
  refine hs.foldl_discard_induction
    (P := fun gone s' => Follows s'.byHop s'.toList (moves ++ gone.map .goes)) hpaths hmem ?_ ?_
  · rw [List.map_nil, List.append_nil]
    exact h
  · intro gone p s' hs' hp hgone
    rw [List.map_append, ← List.append_assoc]
    exact hgone.discard hs' hp

theorem Follows.update (hs : s.Coherent) (h : Follows s.byHop s.toList moves)
    {prev : WavelengthPath} (hprev : s.get? p.id = some prev) :
    Follows ((s.unindex prev).put p).byHop ((s.unindex prev).put p).toList
      (moves ++ [.goes prev, .comes p]) := by
  have hmem : prev ∈ s.toList := SortedMap.mem_values_iff.2 ⟨_, hprev⟩
  have hgone : ∀ q, q ∈ s.toList.filter (fun q => q.id ≠ prev.id) ↔ q ∈ s.toList ∧ q ≠ prev := by
    intro q
    rw [List.mem_filter, decide_eq_true_eq]
    exact and_congr_right fun hq => not_congr (hs.id_eq_iff hq hmem)
  have hnext := (h.goes hgone).comes (hs.mem_toList_update hprev)
  rw [List.append_assoc] at hnext
  exact hnext

/-- The index follows the moves of every call. -/
theorem Follows.run (hs : s.Indexed) (h : Follows s.byHop s.toList moves) (c : Call) :
    Follows (c.run s).byHop (c.run s).toList (moves ++ c.moves s) := by
  cases c with
  | add paths => exact h.putAll hs.toCoherent paths
  | update p =>
    simp only [Call.run, PathStore.update, Call.moves]
    cases hprev : s.get? p.id with
    | some prev => exact h.update hs.toCoherent hprev
    | none =>
      rw [List.append_nil]
      exact h
  | removeGroup group =>
    simp only [Call.run, Call.moves, hs.removeGroup_eq, hs.getGroup_eq_legs]
    exact h.foldl_discard hs.toCoherent (hs.legs_ascending group) fun p hp => (mem_legs.1 hp).1
  | issueGroup =>
    simp only [Call.moves, List.append_nil]
    exact h
  | releaseGroup group =>
    simp only [Call.run, Call.moves, List.append_nil, PathStore.releaseGroup]
    split <;> exact h

theorem Follows.after (hs : s.Indexed) (h : Follows s.byHop s.toList moves) (calls : List Call) :
    Follows (s.after calls).byHop (s.after calls).toList (moves ++ s.moves calls) := by
  induction calls generalizing s moves with
  | nil =>
    rw [show s.moves [] = [] from rfl, List.append_nil]
    exact h
  | cons c rest ih =>
    have hnext := ih (hs.run c).1 (h.run hs c)
    rw [List.append_assoc] at hnext
    exact hnext

/-! ## The look-up -/

/-- What the look-up of a channel on a hop finds after some moves. -/
structure FindsByHop (s : PathStore) (moves : List Move) (cp : ConnectPoint) (signal : Signal) :
    Prop where
  /-- The path found is stored and uses the channel on the hop. -/
  sound : ∀ p, s.findByHop? cp signal = some p →
    p ∈ s.toList ∧ cp ∈ p.leg.route.hops ∧ p.signal = signal
  /-- It is the path that came last, if no path went there since. -/
  found_iff : ∀ p, s.findByHop? cp signal = some p ↔ lastMove? moves ⟨cp, signal⟩ = some (.comes p)
  /-- A path is found if a stored one uses the channel on the hop, unless some path went there last. -/
  isSome_iff : (s.findByHop? cp signal).isSome = true ↔
    (∃ p ∈ s.toList, cp ∈ p.leg.route.hops ∧ p.signal = signal) ∧
      ¬∃ p, lastMove? moves ⟨cp, signal⟩ = some (.goes p)

theorem Follows.findByHop?_eq (hs : s.Coherent) (h : Follows s.byHop s.toList moves)
    (cp : ConnectPoint) (signal : Signal) :
    s.findByHop? cp signal = (lastMove? moves ⟨cp, signal⟩).bind Move.arrival? := by
  rw [findByHop?, h.found]
  cases hm : lastMove? moves ⟨cp, signal⟩ with
  | none => rfl
  | some m =>
    cases m with
    | goes p => rfl
    | comes p => exact hs.get?_of_mem (h.stored _ p hm)

theorem Follows.findsByHop (hs : s.Coherent) (h : Follows s.byHop s.toList moves)
    (cp : ConnectPoint) (signal : Signal) : FindsByHop s moves cp signal := by
  have hfind := h.findByHop?_eq hs cp signal
  have hmoved (p : WavelengthPath) (hp : p ∈ s.toList) (hcp : cp ∈ p.leg.route.hops)
      (hsignal : p.signal = signal) : lastMove? moves ⟨cp, signal⟩ ≠ none :=
    h.moved p hp _ (mem_hopChannels.2 ⟨hcp, hsignal⟩)
  -- nothing moved there, or the last path that did went or came
  cases hm : lastMove? moves ⟨cp, signal⟩ with
  | none =>
    rw [hm] at hfind hmoved
    have hnone : ¬∃ p ∈ s.toList, cp ∈ p.leg.route.hops ∧ p.signal = signal :=
      fun ⟨p, hp, hcp, hsignal⟩ => hmoved p hp hcp hsignal rfl
    exact ⟨by simp [hfind], by simp [hfind, hm], by simp [hfind, hnone]⟩
  | some m =>
    rw [hm] at hfind
    cases m with
    | goes q => exact ⟨by simp [hfind, Move.arrival?], by simp [hfind, hm, Move.arrival?],
        by simp [hfind, hm, Move.arrival?]⟩
    | comes q =>
      have hq : q ∈ s.toList ∧ cp ∈ q.leg.route.hops ∧ q.signal = signal :=
        ⟨h.stored _ q hm, mem_hopChannels.1 (mem_hopChannels_of_lastMove? hm)⟩
      refine ⟨?_, by simp [hfind, hm, Move.arrival?], ?_⟩
      · intro p hp
        rw [hfind] at hp
        cases hp
        exact hq
      · rw [hfind, hm]
        exact iff_of_true rfl ⟨⟨q, hq⟩, by simp⟩

theorem follows_empty : Follows ({} : PathStore).byHop ({} : PathStore).toList [] :=
  ⟨fun _ => rfl, fun _ _ h => (nomatch h), fun _ h => (nomatch h)⟩

/-- After any calls, whether they succeed or fail, what is found for a channel on a hop is decided by the
last move there. -/
theorem hop_lookup_follows_moves (calls : List Call) (cp : ConnectPoint) (signal : Signal) :
    FindsByHop (({} : PathStore).after calls) (({} : PathStore).moves calls) cp signal :=
  (follows_empty.after indexed_empty calls).findsByHop (indexed_empty.after calls).1.toCoherent cp
    signal

/-- A path of a group over one line, at a channel. -/
def pathOverLine (group : Nat) (src dst : ConnectPoint) : WavelengthPath where
  id := 0
  group
  frequencyId := 6
  signal := .dwdm .ghz50 (-30)
  leg :=
    { ingressEdge := .between src ⟨"A", 2⟩
      egressEdge := .between ⟨"B", 2⟩ dst
      route := .single (.between ⟨"A", 1⟩ ⟨"B", 1⟩) 80.0
      mode := ⟨.r100G, .dpQpsk⟩
      quality := ⟨8.5, 7.0⟩ }
  label := ""
  submitted := false

/-- Two groups are stored over the same line at the same channel, and one of them is removed: the channel
is not found on the line any more, although the path of the other group uses it. -/
theorem removed_group_hides_path :
    let s := ({} : PathStore).after
      [.add [pathOverLine 1 ⟨"X", 1⟩ ⟨"Y", 1⟩], .add [pathOverLine 2 ⟨"X", 2⟩ ⟨"Y", 2⟩],
        .removeGroup 1]
    (s.findByHop? ⟨"B", 1⟩ (.dwdm .ghz50 (-30))).isSome = false ∧
      ∃ p ∈ s.toList, p.group = 2 ∧ ⟨"B", 1⟩ ∈ p.leg.route.hops ∧ p.signal = .dwdm .ghz50 (-30) := by
  refine ⟨by decide +kernel, { pathOverLine 2 ⟨"X", 2⟩ ⟨"Y", 2⟩ with id := 2 }, ?_, by decide +kernel⟩
  exact List.mem_singleton.2 rfl

end PathStore

end Lightpath
