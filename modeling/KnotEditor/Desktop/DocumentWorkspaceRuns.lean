import KnotEditor.Desktop.DocumentWorkspaceSafety

/-! Every operation keeps entries, roles and the tree in step. -/

namespace KnotEditor.Desktop.Documents

open KeyedCollections

namespace DocumentWorkspace

variable {D : Type} {workbench : Workbench} {space after : DocumentWorkspace D}
  {gone left : Option DocKey}

theorem SoundBut.removed (sound : SoundBut gone space) {tile : TileId} {role : TileRole}
    (found : space.roles[tile]? = some role)
    (entries : ∀ (key : DocKey) (entry : Entry D), after.entries[key]? = some entry ↔
      space.entries[key]? = some entry ∧ role ≠ .document key)
    (leaving : ∀ key, gone = some key ∨ role = .document key → left = some key)
    (roles : after.roles = space.roles.erase tile)
    (closed : after.tree.ids.Perm (space.tree.ids.filter fun held => decide (held ≠ tile)))
    (focused : after.focused = space.focused)
    (lastReading : ∀ held : TileId, after.lastReading = some held →
      ∃ kind pinned, after.roles[held]? = some (.reading kind pinned))
    (docs : after.nextDoc = space.nextDoc) (tiles : after.nextTile = space.nextTile) :
    SoundBut left after := by
  have looked : ∀ (held : TileId) (wanted : TileRole), after.roles[held]? = some wanted ↔
      held ≠ tile ∧ space.roles[held]? = some wanted := by
    intro held wanted
    rw [roles, getElem?_erase_eq_some_iff]
  have opened : ∀ key, space.IsOpen key → after.IsOpen key ∨ left = some key := by
    rintro key ⟨entry, held⟩
    by_cases own : role = .document key
    · exact Or.inr (leaving key (Or.inr own))
    · exact Or.inl ⟨entry, (entries key entry).mpr ⟨held, own⟩⟩
  have was : ∀ key, after.IsOpen key → space.IsOpen key := by
    rintro key ⟨entry, held⟩
    exact ⟨entry, ((entries key entry).mp held).1⟩
  refine ⟨?_, ?_, ?_, ?_, ?_, ?_, ?_, ?_, lastReading, ?_, ?_, ?_, ?_, ?_, ?_⟩
  · intro key entry held
    rcases (entries key entry).mp held with ⟨before, other⟩
    have own := sound.entryTile key entry before
    refine (looked _ _).mpr ⟨?_, own⟩
    intro same
    rw [same, found] at own
    exact other (Option.some.inj own)
  · intro held key seen
    rcases (looked _ _).mp seen with ⟨apart, before⟩
    rcases sound.tileEntry held key before with ⟨entry, present, same⟩
    refine ⟨entry, (entries key entry).mpr ⟨present, ?_⟩, same⟩
    rintro rfl
    exact apart (sound.single _ rfl held tile before found)
  · rw [closed.nodup_iff]
    exact sound.onceInTree.filter _
  · intro held
    rw [closed.mem_iff, List.mem_filter, sound.treeRoles, decide_eq_true_eq]
    simp only [looked]
    constructor
    · rintro ⟨⟨wanted, seen⟩, apart⟩
      exact ⟨wanted, apart, seen⟩
    · rintro ⟨wanted, apart, seen⟩
      exact ⟨⟨wanted, seen⟩, apart⟩
  · intro key same
    rcases sound.focusOpen key (focused ▸ same) with open_ | lost
    · exact opened key open_
    · exact Or.inr (leaving key (Or.inl lost))
  · intro none_ key open_
    exact sound.focusSome (focused ▸ none_) key (was key open_)
  · intro wanted plain one two first second
    exact sound.single wanted plain one two ((looked _ _).mp first).2 ((looked _ _).mp second).2
  · intro held kind key seen
    rcases sound.pinnedOpen held kind key ((looked _ _).mp seen).2 with open_ | lost
    · exact opened key open_
    · exact Or.inr (leaving key (Or.inl lost))
  · intro one two first second firstHeld secondHeld
    exact sound.identities one two first second ((entries _ _).mp firstHeld).1
      ((entries _ _).mp secondHeld).1
  · intro key open_
    rw [docs]
    exact sound.docsMinted key (was key open_)
  · intro held wanted seen
    rw [tiles]
    exact sound.tilesMinted held wanted ((looked _ _).mp seen).2
  · intro held seen
    exact sound.graphTile held ((looked _ _).mp seen).2
  · rw [docs]
    exact sound.docRoom
  · rw [tiles]
    exact sound.tileRoom

theorem removeTile_spec (workbench : Workbench) (space : DocumentWorkspace D) (tile : TileId) :
    (space.removeTile workbench tile).entries = space.entries ∧
      (space.removeTile workbench tile).roles = space.roles.erase tile ∧
      (space.removeTile workbench tile).tree = workbench.closed space.tree tile ∧
      (space.removeTile workbench tile).focused = space.focused ∧
      (space.removeTile workbench tile).nextDoc = space.nextDoc ∧
      (space.removeTile workbench tile).nextTile = space.nextTile := by
  unfold removeTile
  simp only
  split <;> exact ⟨rfl, rfl, rfl, rfl, rfl, rfl⟩

theorem SoundBut.removeTile_lastReading (sound : SoundBut gone space) (tile held : TileId)
    (last : (space.removeTile workbench tile).lastReading = some held) :
    ∃ kind pinned, (space.removeTile workbench tile).roles[held]? =
      some (.reading kind pinned) := by
  rw [(removeTile_spec workbench space tile).2.1]
  unfold removeTile at last
  simp only at last
  split at last
  next was =>
    have member := List.mem_of_getLast? last
    rcases List.mem_map.mp member with ⟨⟨reading, kind, pinned⟩, listed, rfl⟩
    exact ⟨kind, pinned, mem_readings.mp listed⟩
  next other =>
    rcases sound.lastReading held last with ⟨kind, pinned, found⟩
    refine ⟨kind, pinned, getElem?_erase_eq_some_iff _ |>.mpr ⟨?_, found⟩⟩
    rintro rfl
    exact other last

theorem SoundBut.removeTile (documented : workbench.Documented) (sound : SoundBut gone space)
    {tile : TileId} {role : TileRole} (found : space.roles[tile]? = some role)
    (plain : ∀ key, role ≠ .document key) : SoundBut gone (space.removeTile workbench tile) := by
  rcases removeTile_spec workbench space tile with ⟨entries, roles, tree, focused, docs, tiles⟩
  refine sound.removed found ?_ ?_ roles ?_ focused (sound.removeTile_lastReading tile) docs tiles
  · intro key entry
    rw [entries]
    exact (and_iff_left (plain key)).symm
  · rintro key (lost | own)
    · exact lost
    · exact absurd own (plain key)
  · rw [tree]
    exact documented.closed space.tree tile

theorem closeReadings_spec (tiles : List TileId) :
    (tiles.foldl (closeReading workbench) space).entries = space.entries ∧
      (tiles.foldl (closeReading workbench) space).nextDoc = space.nextDoc ∧
      (tiles.foldl (closeReading workbench) space).nextTile = space.nextTile ∧
      ∀ (tile : TileId) (role : TileRole),
        (tiles.foldl (closeReading workbench) space).roles[tile]? = some role ↔
          tile ∉ tiles ∧ space.roles[tile]? = some role := by
  induction tiles generalizing space with
  | nil => simp
  | cons first rest ih =>
    have one : (space.closeReading workbench first).entries = space.entries ∧
        (space.closeReading workbench first).nextDoc = space.nextDoc ∧
        (space.closeReading workbench first).nextTile = space.nextTile ∧
        ∀ (tile : TileId) (role : TileRole),
          (space.closeReading workbench first).roles[tile]? = some role ↔
            tile ≠ first ∧ space.roles[tile]? = some role := by
      unfold closeReading
      split
      next found =>
        rcases removeTile_spec workbench space first with ⟨entries, roles, -, -, docs, counted⟩
        refine ⟨entries, docs, counted, ?_⟩
        intro tile role
        rw [roles, getElem?_erase_eq_some_iff]
      next absent =>
        refine ⟨rfl, rfl, rfl, ?_⟩
        intro tile role
        refine (and_iff_right_of_imp ?_).symm
        rintro held rfl
        rw [absent] at held
        cases held
    rcases one with ⟨entries, docs, counted, roles⟩
    rcases @ih (space.closeReading workbench first) with ⟨entries', docs', counted', roles'⟩
    rw [List.foldl_cons]
    refine ⟨entries'.trans entries, docs'.trans docs, counted'.trans counted, ?_⟩
    intro tile role
    rw [roles', roles, List.mem_cons, not_or]
    tauto

theorem SoundBut.closeReadings (documented : workbench.Documented) (tiles : List TileId)
    (sound : SoundBut gone space)
    (readings : ∀ tile ∈ tiles, ∀ role : TileRole, space.roles[tile]? = some role →
      role.isReading = true) : SoundBut gone (tiles.foldl (closeReading workbench) space) := by
  induction tiles generalizing space with
  | nil => exact sound
  | cons first rest ih =>
    rw [List.foldl_cons]
    refine ih ?_ ?_
    · unfold closeReading
      split
      next role found =>
        refine sound.removeTile documented found ?_
        rintro key rfl
        exact absurd (readings first List.mem_cons_self _ found) (by simp [TileRole.isReading])
      · exact sound
    · intro tile member role found
      have kept := ((@closeReadings_spec D workbench space [first]).2.2.2 tile role).mp found
      exact readings tile (List.mem_cons_of_mem _ member) role kept.2

theorem mem_readingsPinnedTo {tile : TileId} {key : DocKey} :
    tile ∈ space.readingsPinnedTo key ↔
      ∃ kind, space.roles[tile]? = some (.reading kind (some key)) := by
  unfold readingsPinnedTo
  rw [List.mem_map]
  constructor
  · rintro ⟨⟨id, kind, pinned⟩, listed, rfl⟩
    rcases List.mem_filter.mp listed with ⟨member, same⟩
    have pin : pinned = some key := of_decide_eq_true same
    subst pin
    exact ⟨kind, mem_readings.mp member⟩
  · rintro ⟨kind, found⟩
    refine ⟨(tile, kind, some key), List.mem_filter.mpr ⟨mem_readings.mpr found, ?_⟩, rfl⟩
    exact decide_eq_true rfl

theorem readingsPinnedTo_reading (key : DocKey) (tile : TileId)
    (member : tile ∈ space.readingsPinnedTo key) (role : TileRole)
    (found : space.roles[tile]? = some role) : role.isReading = true := by
  rcases mem_readingsPinnedTo.mp member with ⟨kind, held⟩
  rw [found] at held
  cases held
  rfl

theorem activeDocument_eq_some {key : DocKey} (found : space.activeDocument = some key) :
    ∃ tile : TileId, space.roles[tile]? = some (.document key) := by
  rcases List.exists_of_findSome?_eq_some found with ⟨tile, -, shown⟩
  refine ⟨tile, ?_⟩
  split at shown
  next other held =>
    cases shown
    exact held
  · cases shown

theorem SoundBut.settled {key : DocKey} (sound : SoundBut (some key) space)
    (unpinned : ∀ (tile : TileId) kind, space.roles[tile]? ≠ some (.reading kind (some key))) :
    Sound (if space.focused = some key then
      { space with focused := space.activeDocument.or space.firstEntry } else space) := by
  have pinnedOpen : ∀ (tile : TileId) kind (query : DocKey),
      space.roles[tile]? = some (.reading kind (some query)) → space.IsOpen query ∨ none = some query := by
    intro tile kind query found
    rcases sound.pinnedOpen tile kind query found with open_ | same
    · exact Or.inl open_
    · cases same
      exact absurd found (unpinned tile kind)
  split
  next focusedHere =>
    refine { sound with focusOpen := ?_, focusSome := ?_, pinnedOpen := pinnedOpen }
    · intro query same
      rcases Option.or_eq_some_iff.mp same with active | ⟨-, first⟩
      · rcases activeDocument_eq_some active with ⟨tile, found⟩
        rcases sound.tileEntry tile query found with ⟨entry, held, -⟩
        exact Or.inl ⟨entry, held⟩
      · exact Or.inl (firstEntry_eq_some first)
    · intro none_ query
      exact firstEntry_eq_none (Option.or_eq_none_iff.mp none_).2 query
  next elsewhere =>
    refine { sound with focusOpen := ?_, pinnedOpen := pinnedOpen }
    intro query same
    rcases sound.focusOpen query same with open_ | lost
    · exact Or.inl open_
    · cases lost
      exact absurd same elsewhere

theorem Sound.close (documented : workbench.Documented) (sound : Sound space) (tile : TileId) :
    Sound (space.close workbench tile).2 := by
  unfold DocumentWorkspace.close
  cases found : space.roles[tile]? with
  | none => exact sound
  | some role =>
    cases role with
    | document key =>
      rcases removeTile_spec workbench space tile with
        ⟨entries, roles, tree, focused, docs, tiles⟩
      rcases sound.tileEntry tile key found with ⟨entry, present, -⟩
      simp only [entries, present]
      have removed : SoundBut (some key) { space.removeTile workbench tile with
          entries := space.entries.erase key } := by
        refine sound.removed found ?_ ?_ roles ?_ focused (sound.removeTile_lastReading tile) docs
          tiles
        · intro query held
          rw [getElem?_erase_eq_some_iff, and_comm]
          refine and_congr_right fun _ => not_congr ?_
          rw [TileRole.document.injEq]
          exact eq_comm
        · rintro query (lost | own)
          · cases lost
          · cases own
            rfl
        · rw [tree]
          exact documented.closed space.tree tile
      refine (removed.closeReadings documented _ (readingsPinnedTo_reading key)).settled ?_
      intro reading kind seen
      rcases ((closeReadings_spec _).2.2.2 _ _).mp seen with ⟨unlisted, held⟩
      exact unlisted (mem_readingsPinnedTo.mpr ⟨kind, held⟩)
    | reading kind pinned => exact sound.removeTile documented found (by simp)
    | navigator => exact sound.removeTile documented found (by simp)
    | graph => exact sound.removeTile documented found (by simp)
    | metadata site page => exact sound.removeTile documented found (by simp)
    | site site => exact sound.removeTile documented found (by simp)

theorem Sound.setIdentity (sound : Sound space) (key : DocKey) (identity : DocIdentity)
    (alone : identity ≠ .scratch → ∀ (other : DocKey) (entry : Entry D),
      space.entries[other]? = some entry → other ≠ key → entry.identity ≠ identity) :
    Sound (space.setIdentity key identity) := by
  unfold DocumentWorkspace.setIdentity
  cases found : space.entries[key]? with
  | none => exact sound
  | some entry =>
    simp only
    have looked : ∀ (query : DocKey) (held : Entry D),
        (space.entries.insert key { entry with identity })[query]? = some held ↔
          query = key ∧ held = { entry with identity } ∨
            query ≠ key ∧ space.entries[query]? = some held := by
      intro query held
      rw [getElem?_insert_eq_some_iff]
    have opens : ∀ query, IsOpen { space with
        entries := space.entries.insert key { entry with identity } } query ↔
          space.IsOpen query := by
      intro query
      by_cases same : query = key
      · subst same
        exact ⟨fun _ => ⟨entry, found⟩, fun _ => ⟨_, (looked _ _).mpr (Or.inl ⟨rfl, rfl⟩)⟩⟩
      · refine exists_congr fun held => (looked query held).trans ?_
        simp [same]
    refine { sound with
      entryTile := ?_, tileEntry := ?_, focusOpen := ?_, focusSome := ?_, pinnedOpen := ?_,
      identities := ?_, docsMinted := ?_ }
    · intro query held present
      rcases (looked _ _).mp present with ⟨rfl, rfl⟩ | ⟨-, before⟩
      · exact sound.entryTile query entry found
      · exact sound.entryTile query held before
    · intro tile query shown
      rcases sound.tileEntry tile query shown with ⟨held, before, same⟩
      by_cases here : query = key
      · subst here
        rw [found] at before
        cases before
        exact ⟨_, (looked _ _).mpr (Or.inl ⟨rfl, rfl⟩), same⟩
      · exact ⟨held, (looked _ _).mpr (Or.inr ⟨here, before⟩), same⟩
    · intro query same
      rw [opens]
      exact sound.focusOpen query same
    · intro none_ query
      rw [opens]
      exact sound.focusSome none_ query
    · intro tile kind query shown
      rw [opens]
      exact sound.pinnedOpen tile kind query shown
    · intro one two first second firstHeld secondHeld same named
      rcases (looked _ _).mp firstHeld with ⟨rfl, rfl⟩ | ⟨firstOther, before⟩
      · rcases (looked _ _).mp secondHeld with ⟨rfl, -⟩ | ⟨secondOther, elsewhere⟩
        · rfl
        · exact absurd same.symm (alone named two second elsewhere secondOther)
      · rcases (looked _ _).mp secondHeld with ⟨rfl, rfl⟩ | ⟨secondOther, elsewhere⟩
        · exact absurd same (alone (fun scratch => named (same.trans scratch)) one
            first before firstOther)
        · exact sound.identities one two first second before elsewhere same named
    · intro query
      rw [opens]
      exact sound.docsMinted query

theorem Sound.setPinned (sound : Sound space) (tile : TileId) (pinned : Option DocKey)
    (fits : ∀ kind old, space.roles[tile]? = some (.reading kind old) →
      ∀ key, pinned = some key → space.IsOpen key) :
    Sound (space.setPinned tile pinned) := by
  unfold DocumentWorkspace.setPinned
  split
  next kind old found =>
    have looked : ∀ (held : TileId) (role : TileRole),
        (space.roles.insert tile (.reading kind pinned))[held]? = some role ↔
          held = tile ∧ role = .reading kind pinned ∨
            held ≠ tile ∧ space.roles[held]? = some role := by
      intro held role
      rw [getElem?_insert_eq_some_iff]
    have plain : ∀ (held : TileId) (role : TileRole), role.isReading = false →
        ((space.roles.insert tile (.reading kind pinned))[held]? = some role ↔
          space.roles[held]? = some role) := by
      intro held role other
      rw [looked]
      constructor
      · rintro (⟨-, rfl⟩ | ⟨-, before⟩)
        · cases other
        · exact before
      · intro before
        refine Or.inr ⟨?_, before⟩
        rintro rfl
        rw [found] at before
        cases before
        cases other
    refine { sound with
      entryTile := ?_, tileEntry := ?_, treeRoles := ?_, single := ?_, pinnedOpen := ?_,
      lastReading := ?_, tilesMinted := ?_, graphTile := ?_ }
    · intro key entry held
      exact (plain _ _ rfl).mpr (sound.entryTile key entry held)
    · intro held key shown
      exact sound.tileEntry held key ((plain _ _ rfl).mp shown)
    · intro held
      rw [sound.treeRoles]
      simp only [looked]
      by_cases same : held = tile
      · subst same
        exact ⟨fun _ => ⟨_, Or.inl ⟨rfl, rfl⟩⟩, fun _ => ⟨_, found⟩⟩
      · simp [same]
    · intro role other one two first second
      exact sound.single role other one two ((plain _ _ other).mp first)
        ((plain _ _ other).mp second)
    · intro held shown key seen
      rcases (looked _ _).mp seen with ⟨rfl, same⟩ | ⟨-, before⟩
      · cases same
        exact Or.inl (fits kind old found key rfl)
      · exact sound.pinnedOpen held shown key before
    · intro held last
      rcases sound.lastReading held last with ⟨shown, pin, before⟩
      by_cases same : held = tile
      · exact ⟨kind, pinned, (looked _ _).mpr (Or.inl ⟨same, rfl⟩)⟩
      · exact ⟨shown, pin, (looked _ _).mpr (Or.inr ⟨same, before⟩)⟩
    · intro held role seen other
      rcases (looked _ _).mp seen with ⟨rfl, rfl⟩ | ⟨-, before⟩
      · exact sound.tilesMinted held _ found (by simp)
      · exact sound.tilesMinted held role before other
    · intro held seen
      exact sound.graphTile held ((plain _ _ rfl).mp seen)
  · exact sound

theorem joinFrame_placed {tile : Tile} {tree : TileTree} {placed : Bool × TileTree}
    (places : Places tile tree placed) (room : placed.1 = true ∨ tree.joinable = true) :
    (joinFrame placed tile).ids.Perm (tile.id :: tree.ids) := by
  unfold joinFrame
  rcases places with ⟨made, perm⟩ | rfl
  · rw [if_pos made]
    exact perm
  · simp only [Bool.false_eq_true, false_or] at room
    simp only [Bool.false_eq_true, if_false]
    cases tree with
    | stack tabs active =>
      rw [ids_stack, ids_stack, List.map_append]
      exact List.perm_append_singleton tile.id (tabs.map Tile.id)
    | split children =>
      have blank : (TileTree.split children).ids = [] := by
        rw [TileTree.ids, TileTree.tiles, List.isEmpty_iff.mp room, List.map_nil]
      rw [blank]
      exact List.Perm.refl _

theorem attempt_made {tree : TileTree} {target : Option TileId} {id : TileId} {tile : Tile}
    {edge : Edge} (documented : workbench.Documented) (present : target = some id)
    (inside : id ∈ tree.ids) :
    (attempt target tree fun tree target => workbench.splitBeside tree target edge tile).1 = true ∧
      (attempt target tree fun tree target => workbench.insertTabAfter tree target tile).1 = true := by
  subst present
  exact ⟨(documented.split tree id edge tile inside).1, (documented.inserted tree id tile inside).1⟩

theorem orElse_made {first : Bool × TileTree} {next : TileTree → Bool × TileTree}
    {tree : TileTree} {tile : Tile} (tried : Places tile tree first)
    (made : first.1 = true ∨ (next tree).1 = true) : (orElse first next).1 = true := by
  unfold orElse
  split
  next already => exact already
  next not_yet =>
    rcases tried with ⟨already, -⟩ | rfl
    · exact absurd already not_yet
    · exact made.resolve_left not_yet

theorem Sound.joinOrSplit_made (documented : workbench.Documented) (sound : Sound space)
    {beside : Option TileId} {edge : Edge} {tile : Tile}
    (room : (∃ id, beside = some id ∧ id ∈ space.tree.ids) ∨ space.firstEntry ≠ none) :
    (joinOrSplit workbench beside ((space.focused.or space.firstEntry).bind space.tileOf) edge
      space.tree tile).1 = true := by
  refine orElse_made documented.attempt_insert ?_
  rcases room with ⟨id, present, inside⟩ | some_
  · exact Or.inl (@attempt_made _ _ _ _ tile edge documented present inside).2
  · refine Or.inr ?_
    cases chosen : space.focused.or space.firstEntry with
    | none => exact absurd (Option.or_eq_none_iff.mp chosen).2 some_
    | some key =>
      have open_ : space.IsOpen key := by
        rcases Option.or_eq_some_iff.mp chosen with focused | ⟨-, first⟩
        · exact (sound.focusOpen key focused).resolve_right (by simp)
        · exact firstEntry_eq_some first
      rcases open_ with ⟨entry, held⟩
      have beside : (some key).bind space.tileOf = some entry.tile := by
        simp only [Option.bind_some, tileOf, held, Option.map_some]
      have inside : entry.tile ∈ space.tree.ids :=
        (sound.treeRoles _).mpr ⟨_, sound.entryTile key entry held⟩
      exact (@attempt_made _ _ _ _ tile edge documented beside inside).1

def LeftRoom (space : DocumentWorkspace D) : Prop :=
  (space.firstTile fun _ role => role.isLeft) ≠ none ∨ space.firstEntry ≠ none ∨
    space.tree.joinable = true

def ReadingRoom (space : DocumentWorkspace D) : Prop :=
  space.lastReading ≠ none ∨ space.firstEntry ≠ none ∨ space.tree.joinable = true

theorem Sound.holds_iff (sound : Sound space) {tile : TileId} :
    space.holds tile = true ↔ ∃ role : TileRole, space.roles[tile]? = some role := by
  rw [holds, find_isSome_iff, sound.treeRoles]

theorem Sound.openLeft (documented : workbench.Documented) (sound : Sound space) (title : String)
    {role : TileRole} (room : space.TileRoom role) (place : space.LeftRoom)
    (unique : ∀ tile : TileId, space.roles[tile]? ≠ some role)
    (leftRole : role.isLeft = true) : Sound (space.openLeft workbench title role).2 := by
  refine sound.minted room (fun _ => unique) ?_ ?_ ?_
  · rintro key rfl
    cases leftRole
  · rintro kind key rfl
    cases leftRole
  · refine joinFrame_placed documented.joinOrSplit ?_
    by_cases joins : space.tree.joinable = true
    · exact Or.inr joins
    · refine Or.inl (sound.joinOrSplit_made documented ?_)
      rcases place with left | some_ | joinable
      · refine Or.inl ?_
        cases found : space.firstTile fun _ role => role.isLeft with
        | none => exact absurd found left
        | some id =>
          rcases firstTile_eq_some found with ⟨held, shown, -⟩
          have inside := sound.holds_iff.mpr ⟨held, shown⟩
          exact ⟨id, by rw [Option.filter_some_pos inside], find_isSome_iff.mp inside⟩
      · exact Or.inr some_
      · exact absurd joinable joins

theorem Sound.openNavigator (documented : workbench.Documented) (sound : Sound space)
    (title : String) (fits : space.navigator = none →
      space.nextTile < graphTileId ∧ space.LeftRoom) :
    Sound (space.openNavigator workbench title).2 := by
  unfold DocumentWorkspace.openNavigator
  split
  · exact sound
  next absent =>
    exact sound.openLeft documented title (fun _ => (fits absent).1) (fits absent).2
      (absent_of_firstTile_eq_none absent) rfl

theorem Sound.openSiteTile (documented : workbench.Documented) (sound : Sound space)
    (site : SiteKey) (title : String) (fits : space.siteTile site = none →
      space.nextTile < graphTileId ∧ space.LeftRoom) :
    Sound (space.openSiteTile workbench site title).2 := by
  unfold DocumentWorkspace.openSiteTile
  split
  next tile found => exact sound.activate documented tile
  next absent =>
    exact (sound.openLeft documented title (fun _ => (fits absent).1) (fits absent).2
      (absent_of_firstTile_eq_none absent) rfl).activate documented _

theorem Sound.openReading (documented : workbench.Documented) (sound : Sound space)
    (kind : ReadingKind) (pinned : Option DocKey) (title : String)
    (pinOpen : ∀ key, pinned = some key → space.IsOpen key) (room : space.nextTile < graphTileId)
    (place : space.ReadingRoom) : Sound (space.openReading workbench kind pinned title).2 := by
  have placed : (joinFrame (joinOrSplit workbench (space.lastReading.filter space.holds)
      ((space.focused.or space.firstEntry).bind space.tileOf) .right space.tree
      (space.mintTile title (.reading kind pinned)).1)
      (space.mintTile title (.reading kind pinned)).1).ids.Perm
        ((space.mintTile title (.reading kind pinned)).1.id :: space.tree.ids) := by
    refine joinFrame_placed documented.joinOrSplit ?_
    by_cases joins : space.tree.joinable = true
    · exact Or.inr joins
    · refine Or.inl (sound.joinOrSplit_made documented ?_)
      rcases place with last | some_ | joinable
      · refine Or.inl ?_
        cases found : space.lastReading with
        | none => exact absurd found last
        | some id =>
          rcases sound.lastReading id found with ⟨kind, pin, shown⟩
          have inside := sound.holds_iff.mpr ⟨_, shown⟩
          exact ⟨id, by rw [Option.filter_some_pos inside], find_isSome_iff.mp inside⟩
      · exact Or.inr some_
      · exact absurd joinable joins
  have added := sound.minted (fun _ => room) (by simp [TileRole.isReading]) (by simp)
    (by
      rintro kind' key same
      cases same
      exact pinOpen key rfl) placed
  have shown : (space.mintTile title (.reading kind pinned)).2.roles[
      (space.mintTile title (.reading kind pinned)).1.id]? = some (.reading kind pinned) :=
    Std.ExtTreeMap.getElem?_insert_self
  exact (added.retreed (documented.activated _ _)).lastRead shown

theorem Sound.placed (documented : workbench.Documented) (sound : Sound space) {title : String}
    {role : TileRole} (room : space.TileRoom role) (plain : role.isReading = false)
    (unique : ∀ tile : TileId, space.roles[tile]? ≠ some role)
    (notDocument : ∀ key, role ≠ .document key) :
    Sound ((space.mintTile title role).2.placeDocumentTile workbench
      (space.mintTile title role).1) := by
  rcases @placeDocumentTile_spec D workbench (space.mintTile title role).2 documented
    (space.mintTile title role).1 with ⟨tree, same, placed⟩
  rw [same]
  refine sound.minted room (fun _ => unique) notDocument ?_ placed
  rintro kind key rfl
  cases plain

theorem Sound.openMetadata (documented : workbench.Documented) (sound : Sound space)
    (site : SiteKey) (page title : String) (fits : space.metadataTile site page = none →
      space.nextTile < graphTileId) :
    Sound (space.openMetadata workbench site page title).2 := by
  unfold DocumentWorkspace.openMetadata
  split
  next tile found => exact sound.activate documented tile
  next absent =>
    exact (sound.placed documented (fun _ => fits absent) rfl (absent_of_firstTile_eq_none absent)
      (by simp)).activate documented _

theorem Sound.openGraph (documented : workbench.Documented) (sound : Sound space)
    (title : String) : Sound (space.openGraph workbench title).2 := by
  unfold DocumentWorkspace.openGraph
  split
  next tile found => exact sound.activate documented tile
  next absent =>
    exact (sound.placed documented (by simp [TileRoom]) rfl
      (absent_of_firstTile_eq_none absent) (by simp)).activate documented _

theorem Sound.prepareLastDocumentClose (documented : workbench.Documented) (sound : Sound space)
    (document : DocKey) (title : String) :
    Sound (space.prepareLastDocumentClose workbench document title).2 := by
  unfold DocumentWorkspace.prepareLastDocumentClose
  split
  · exact sound
  · split
    next graph found => exact sound.activate documented graph
    next absent =>
      cases document' : space.tileOf document with
      | none => exact sound
      | some documentTile =>
        rcases Option.map_eq_some_iff.mp document' with ⟨entry, held, rfl⟩
        have inside : entry.tile ∈ (space.mintTile title .graph).2.tree.ids :=
          (sound.treeRoles _).mpr ⟨_, sound.entryTile document entry held⟩
        rcases documented.inserted _ _ (space.mintTile title .graph).1 inside with
          ⟨made, placed⟩
        simp only [made, if_true]
        refine SoundBut.activate documented ?_ _
        exact sound.minted (by simp [TileRoom]) (fun _ => absent_of_firstTile_eq_none absent)
          (by simp) (by simp) placed

theorem Sound.open_ (documented : workbench.Documented) (sound : Sound space)
    (identity : DocIdentity) (title : String) (doc : D)
    (fits : space.find identity = none →
      space.nextDoc + 1 < u64Limit ∧ space.nextTile < graphTileId) :
    Sound (space.open_ workbench identity title doc).2 := by
  unfold DocumentWorkspace.open_
  split
  next key found => exact sound.focus documented key
  next absent =>
    have room := fits absent
    have small : space.nextDoc + 1 < u64Limit := room.1
    have counts := @SoundBut.mint_counts D space none sound (.document space.nextDoc) title
      (fun _ => room.2)
    have closed : ¬ space.IsOpen space.nextDoc := by
      intro open_
      exact absurd (sound.docsMinted _ open_) (Nat.lt_irrefl _)
    have untiled : ∀ tile : TileId, space.roles[tile]? ≠ some (.document space.nextDoc) := by
      intro tile found
      rcases sound.tileEntry tile _ found with ⟨entry, held, -⟩
      exact closed ⟨entry, held⟩
    have fresh := @SoundBut.mint_fresh D space none sound (.document space.nextDoc) title
      (fun _ => room.2) (fun _ => untiled)
    rcases @placeDocumentTile_spec D workbench
      (mintTile { space with nextDoc := (space.nextDoc + 1) % u64Limit } title
        (.document space.nextDoc)).2 documented
      (mintTile { space with nextDoc := (space.nextDoc + 1) % u64Limit } title
        (.document space.nextDoc)).1 with ⟨tree, same, placed⟩
    simp only [same]
    unfold DocumentWorkspace.focus
    simp only [Std.ExtTreeMap.getElem?_insert_self]
    refine sound.addedDocument fresh rfl closed absent rfl rfl
      ((documented.activated tree _).trans placed) rfl rfl ?_ ?_
    · have next : (space.nextDoc + 1) % u64Limit = space.nextDoc + 1 := Nat.mod_eq_of_lt small
      change space.nextDoc < (space.nextDoc + 1) % u64Limit ∧
        space.nextDoc ≤ (space.nextDoc + 1) % u64Limit ∧
          (space.nextDoc + 1) % u64Limit < u64Limit
      rw [next]
      exact ⟨Nat.lt_succ_self _, Nat.le_succ _, small⟩
    · exact ⟨counts.2.1 (by simp), counts.1.1, counts.1.2⟩

end DocumentWorkspace

end KnotEditor.Desktop.Documents
