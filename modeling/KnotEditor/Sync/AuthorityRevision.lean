import KnotEditor.Sync.SpaceAuthority

/-! Which collections make the same authority revision. The hashed bytes are those of the snapshot,
and the snapshot keeps one route for each peer. -/

namespace KnotEditor

namespace KnotSpaceAuthoritySnapshot

/-- What a snapshot is built from. Every length is a `usize`. -/
structure Input where
  source : KnotAuthoritySource
  writers : List Bytes32
  evidenceReaders : List Bytes32
  evidenceSources : List Bytes32
  routeHints : List (Bytes32 × String)
  writersFit : writers.length < 256 ^ 8
  evidenceReadersFit : evidenceReaders.length < 256 ^ 8
  evidenceSourcesFit : evidenceSources.length < 256 ^ 8
  routeHintsFit : routeHints.length < 256 ^ 8
  ticketsFit : ∀ hint ∈ routeHints, (utf8Bytes hint.2.toList).length < 256 ^ 8

namespace Input

def snapshot (input : Input) : KnotSpaceAuthoritySnapshot :=
  new input.source input.writers input.evidenceReaders input.evidenceSources input.routeHints

structure SameCollections (left right : Input) : Prop where
  source : left.source = right.source
  writers : ∀ peer, peer ∈ left.writers ↔ peer ∈ right.writers
  evidenceReaders : ∀ peer, peer ∈ left.evidenceReaders ↔ peer ∈ right.evidenceReaders
  evidenceSources : ∀ peer, peer ∈ left.evidenceSources ↔ peer ∈ right.evidenceSources
  routeHints : ∀ hint, hint ∈ left.routeHints ↔ hint ∈ right.routeHints

/-- The revision of the input is its own: the same for the same collections, and for no other
snapshot. -/
structure Identified (input : Input) : Prop where
  reordered : ∀ other : Input, input.SameCollections other →
    input.snapshot.revisionBytes = other.snapshot.revisionBytes
  distinct : ∀ other : Input, input.snapshot.revisionBytes = other.snapshot.revisionBytes →
    input.snapshot = other.snapshot

def OneRoutePerPeer (input : Input) : Prop :=
  ∀ first ∈ input.routeHints, ∀ second ∈ input.routeHints, first.1 = second.1 →
    first.2 = second.2

instance (input : Input) : Decidable input.OneRoutePerPeer :=
  inferInstanceAs (Decidable (∀ first ∈ input.routeHints, ∀ second ∈ input.routeHints,
    first.1 = second.1 → first.2 = second.2))

end Input

section Routes

variable {routes : List (Bytes32 × String)} {peer : Bytes32} {ticket : String}

theorem getElem?_insertMany (known : Std.ExtTreeMap Bytes32 String) :
    (known.insertMany routes)[peer]? =
      ((routes.reverse.find? fun hint => hint.1 = peer).map Prod.snd).or known[peer]? := by
  induction routes generalizing known with
  | nil => simp
  | cons hint rest ih =>
    rw [← Prod.eta hint, Std.ExtTreeMap.insertMany_cons, ih, List.reverse_cons,
      List.find?_append, Std.ExtTreeMap.getElem?_insert]
    cases later : rest.reverse.find? fun hint => hint.1 = peer with
    | some last => rfl
    | none => by_cases same : hint.1 = peer <;> simp [same]

theorem getElem?_routeHints (input : Input) :
    input.snapshot.routeHints[peer]? =
      (input.routeHints.reverse.find? fun hint => hint.1 = peer).map Prod.snd := by
  rw [Input.snapshot, new, Std.ExtTreeMap.ofList_eq_insertMany_empty, getElem?_insertMany]
  simp

theorem mem_of_getElem?_routeHints {input : Input}
    (kept : input.snapshot.routeHints[peer]? = some ticket) :
    (peer, ticket) ∈ input.routeHints := by
  rw [getElem?_routeHints] at kept
  obtain ⟨hint, found, same⟩ := Option.map_eq_some_iff.mp kept
  have member := List.mem_reverse.mp (List.mem_of_find?_eq_some found)
  have key : hint.1 = peer := by simpa using List.find?_some found
  rwa [← key, ← same]

theorem getElem?_routeHints_iff {input : Input} (one : input.OneRoutePerPeer) :
    input.snapshot.routeHints[peer]? = some ticket ↔ (peer, ticket) ∈ input.routeHints := by
  constructor
  · exact mem_of_getElem?_routeHints
  · intro member
    cases kept : input.snapshot.routeHints[peer]? with
    | none =>
      rw [getElem?_routeHints, Option.map_eq_none_iff, List.find?_eq_none] at kept
      exact absurd (decide_eq_true rfl) (kept (peer, ticket) (List.mem_reverse.mpr member))
    | some other =>
      have there := mem_of_getElem?_routeHints kept
      have same : other = ticket := one (peer, other) there (peer, ticket) member rfl
      rw [same]

theorem getElem?_routeHints_last {input : Input}
    (last : input.routeHints = routes ++ [(peer, ticket)]) :
    input.snapshot.routeHints[peer]? = some ticket := by
  rw [getElem?_routeHints, last, List.reverse_append]
  simp

theorem addressable_snapshot (input : Input) : input.snapshot.Addressable where
  writers := by
    rw [Std.ExtTreeSet.length_toList]
    exact Nat.lt_of_le_of_lt Std.ExtTreeSet.size_ofList_le input.writersFit
  evidenceReaders := by
    rw [Std.ExtTreeSet.length_toList]
    exact Nat.lt_of_le_of_lt Std.ExtTreeSet.size_ofList_le input.evidenceReadersFit
  evidenceSources := by
    rw [Std.ExtTreeSet.length_toList]
    exact Nat.lt_of_le_of_lt Std.ExtTreeSet.size_ofList_le input.evidenceSourcesFit
  routeHints := by
    rw [Std.ExtTreeMap.length_toList]
    exact Nat.lt_of_le_of_lt Std.ExtTreeMap.size_ofList_le input.routeHintsFit
  tickets := by
    intro hint member
    exact input.ticketsFit hint (mem_of_getElem?_routeHints
      (Std.ExtTreeMap.mem_toList_iff_getElem?_eq_some.mp member))

end Routes

section Identity

variable {input other : Input}

theorem peerSet_ofList_congr {left right : List Bytes32}
    (same : ∀ peer, peer ∈ left ↔ peer ∈ right) :
    (Std.ExtTreeSet.ofList left compare : PeerSet) = Std.ExtTreeSet.ofList right compare := by
  apply Std.ExtTreeSet.ext_mem
  intro peer
  rw [Std.ExtTreeSet.mem_ofList, Std.ExtTreeSet.mem_ofList, List.contains_iff_mem,
    List.contains_iff_mem, same peer]

theorem Input.OneRoutePerPeer.of_same (one : input.OneRoutePerPeer)
    (same : input.SameCollections other) : other.OneRoutePerPeer :=
  fun first member second member' =>
    one first ((same.routeHints first).mpr member) second ((same.routeHints second).mpr member')

theorem snapshot_eq_of_same (one : input.OneRoutePerPeer) (same : input.SameCollections other) :
    input.snapshot = other.snapshot := by
  have routes : input.snapshot.routeHints = other.snapshot.routeHints := by
    apply Std.ExtTreeMap.ext_getElem?
    intro peer
    apply Option.ext
    intro ticket
    rw [getElem?_routeHints_iff one, getElem?_routeHints_iff (one.of_same same),
      same.routeHints]
  have writers := peerSet_ofList_congr same.writers
  have readers := peerSet_ofList_congr same.evidenceReaders
  have sources := peerSet_ofList_congr same.evidenceSources
  have kinds := same.source
  simp only [Input.snapshot, new] at routes ⊢
  rw [kinds, writers, readers, sources, routes]

def Input.moveLast (input : Input) (hint : Bytes32 × String) (member : hint ∈ input.routeHints) :
    Input :=
  { input with
    routeHints := input.routeHints.erase hint ++ [hint]
    routeHintsFit := by
      have positive := List.length_pos_of_mem member
      rw [List.length_append, List.length_erase_of_mem member, List.length_singleton,
        Nat.sub_add_cancel positive]
      exact input.routeHintsFit
    ticketsFit := by
      intro other there
      rcases List.mem_append.mp there with kept | last
      · exact input.ticketsFit other (List.mem_of_mem_erase kept)
      · rw [List.mem_singleton.mp last]
        exact input.ticketsFit hint member }

theorem same_moveLast {hint : Bytes32 × String} (member : hint ∈ input.routeHints) :
    input.SameCollections (input.moveLast hint member) where
  source := rfl
  writers _ := Iff.rfl
  evidenceReaders _ := Iff.rfl
  evidenceSources _ := Iff.rfl
  routeHints route := by
    have perm : List.Perm input.routeHints (input.routeHints.erase hint ++ [hint]) :=
      (List.perm_cons_erase member).trans (List.perm_append_singleton _ _).symm
    exact perm.mem_iff

/-- The revision of an input identifies its authority whatever the order of the collections, if and
only if no peer comes with two routes. -/
theorem identified_iff_one_route (input : Input) :
    input.Identified ↔ input.OneRoutePerPeer := by
  constructor
  · intro identified first member second member' peers
    have one := identified.reordered _ (same_moveLast member)
    have two := identified.reordered _ (same_moveLast member')
    have same : (input.moveLast first member).snapshot = (input.moveLast second member').snapshot :=
      revisionBytes_inj (addressable_snapshot _) (addressable_snapshot _) (one.symm.trans two)
    have kept : (input.moveLast first member).snapshot.routeHints[first.1]? = some first.2 :=
      getElem?_routeHints_last rfl
    have kept' : (input.moveLast second member').snapshot.routeHints[second.1]? = some second.2 :=
      getElem?_routeHints_last rfl
    rw [same, peers, kept'] at kept
    exact (Option.some.inj kept).symm
  · intro one
    refine ⟨?_, ?_⟩
    · intro other same
      rw [snapshot_eq_of_same one same]
    · intro other same
      exact revisionBytes_inj (addressable_snapshot input) (addressable_snapshot other) same

def Input.twoRoutes (first second : Bytes32 × String)
    (firstFits : (utf8Bytes first.2.toList).length < 256 ^ 8)
    (secondFits : (utf8Bytes second.2.toList).length < 256 ^ 8) : Input where
  source := .gemotCapabilities
  writers := []
  evidenceReaders := []
  evidenceSources := []
  routeHints := [first, second]
  writersFit := by decide
  evidenceReadersFit := by decide
  evidenceSourcesFit := by decide
  routeHintsFit := Nat.lt_trans (Nat.lt_succ_self 2) (by decide)
  ticketsFit := by
    intro hint member
    rcases List.mem_cons.mp member with rfl | later
    · exact firstFits
    · rw [List.mem_singleton.mp later]
      exact secondFits

theorem order_of_routes_changes_revision :
    let one : Bytes32 × String := (.filled 4, "route-a")
    let two : Bytes32 × String := (.filled 4, "route-b")
    let forth := Input.twoRoutes one two (by decide) (by decide)
    let back := Input.twoRoutes two one (by decide) (by decide)
    forth.SameCollections back ∧
      forth.snapshot.revisionBytes ≠ back.snapshot.revisionBytes := by
  refine ⟨⟨rfl, fun _ => Iff.rfl, fun _ => Iff.rfl, fun _ => Iff.rfl, ?_⟩, ?_⟩
  · intro hint
    simp only [Input.twoRoutes, List.mem_cons, List.not_mem_nil, or_false]
    exact or_comm
  · decide +kernel

end Identity

end KnotSpaceAuthoritySnapshot

end KnotEditor
