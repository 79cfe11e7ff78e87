import Mathlib.Data.List.Perm.Basic
import KnotEditor.Library.KeyedCollection
import KnotEditor.Library.Run
import KnotEditor.Desktop.DocumentWorkspace

/-! Entries, roles and the tile tree stay in step, whatever is opened and closed. -/

namespace KnotEditor.Desktop.Documents

open KeyedCollections

structure Workbench.Documented (workbench : Workbench) : Prop where
  inserted : ∀ tree target tile, target ∈ tree.ids →
    (workbench.insertTabAfter tree target tile).1 = true ∧
      (workbench.insertTabAfter tree target tile).2.ids.Perm (tile.id :: tree.ids)
  notInserted : ∀ tree target tile, target ∉ tree.ids →
    workbench.insertTabAfter tree target tile = (false, tree)
  split : ∀ tree target edge tile, target ∈ tree.ids →
    (workbench.splitBeside tree target edge tile).1 = true ∧
      (workbench.splitBeside tree target edge tile).2.ids.Perm (tile.id :: tree.ids)
  notSplit : ∀ tree target edge tile, target ∉ tree.ids →
    workbench.splitBeside tree target edge tile = (false, tree)
  activated : ∀ tree tile, (workbench.activated tree tile).ids.Perm tree.ids
  closed : ∀ tree tile, (workbench.closed tree tile).ids.Perm
    (tree.ids.filter fun held => decide (held ≠ tile))

def TileTree.joinable : TileTree → Bool
  | stack _ _ => true
  | split children => (tilesOf children).isEmpty

def Places (tile : Tile) (tree : TileTree) (result : Bool × TileTree) : Prop :=
  result.1 = true ∧ result.2.ids.Perm (tile.id :: tree.ids) ∨ result = (false, tree)

section

variable {workbench : Workbench} {tile : Tile} {tree : TileTree} {target : Option TileId}
  {edge : Edge}

theorem Workbench.Documented.attempt_insert (documented : workbench.Documented) :
    Places tile tree
      (attempt target tree fun tree target => workbench.insertTabAfter tree target tile) := by
  cases target with
  | none => exact Or.inr rfl
  | some target =>
    by_cases held : target ∈ tree.ids
    · exact Or.inl (documented.inserted tree target tile held)
    · exact Or.inr (documented.notInserted tree target tile held)

theorem Workbench.Documented.attempt_split (documented : workbench.Documented) :
    Places tile tree
      (attempt target tree fun tree target => workbench.splitBeside tree target edge tile) := by
  cases target with
  | none => exact Or.inr rfl
  | some target =>
    by_cases held : target ∈ tree.ids
    · exact Or.inl (documented.split tree target edge tile held)
    · exact Or.inr (documented.notSplit tree target edge tile held)

theorem Places.orElse {first : Bool × TileTree} {next : TileTree → Bool × TileTree}
    (tried : Places tile tree first) (then_ : Places tile tree (next tree)) :
    Places tile tree (orElse first next) := by
  unfold Documents.orElse
  rcases tried with ⟨made, placed⟩ | rfl
  · rw [if_pos made]
    exact Or.inl ⟨made, placed⟩
  · exact then_

theorem Workbench.Documented.placeBeside (documented : workbench.Documented)
    {beside reading left : Option TileId} :
    Places tile tree (placeBeside workbench beside reading left tree tile) :=
  (documented.attempt_insert.orElse documented.attempt_split).orElse documented.attempt_split

theorem Workbench.Documented.joinOrSplit (documented : workbench.Documented)
    {beside document : Option TileId} :
    Places tile tree (joinOrSplit workbench beside document edge tree tile) :=
  documented.attempt_insert.orElse documented.attempt_split

theorem ids_stack (tabs : List Tile) (active : Nat) :
    (TileTree.stack tabs active).ids = tabs.map Tile.id := rfl

theorem Workbench.Documented.settle (documented : workbench.Documented)
    {placed : Bool × TileTree} (places : Places tile tree placed) :
    (settle workbench placed tile).ids.Perm (tile.id :: tree.ids) := by
  unfold Documents.settle
  rcases places with ⟨made, placed⟩ | rfl
  · rw [if_pos made]
    exact placed
  · simp only [Bool.false_eq_true, if_false]
    split
    next active => exact List.Perm.refl _
    next unsettled =>
      cases survivor : (tree.tiles.head?).map Tile.id with
      | none =>
        rw [Option.map_eq_none_iff, List.head?_eq_none_iff] at survivor
        have blank : tree.ids = [] := by rw [TileTree.ids, survivor, List.map_nil]
        rw [blank]
        exact List.Perm.refl _
      | some target =>
        rcases Option.map_eq_some_iff.mp survivor with ⟨held, head, rfl⟩
        have inside : held.id ∈ tree.ids := List.mem_map_of_mem (List.mem_of_mem_head? head)
        rcases documented.split tree held.id .right tile inside with ⟨made, perm⟩
        simp only [attempt, made, if_true]
        exact perm

theorem find_isSome_iff {id : TileId} : (tree.find id).isSome = true ↔ id ∈ tree.ids := by
  unfold TileTree.find TileTree.ids
  rw [List.find?_isSome, List.mem_map]
  simp only [beq_iff_eq]

end

namespace DocumentWorkspace

variable {D : Type} {workbench : Workbench} {space : DocumentWorkspace D} {tile : Tile}

theorem placeDocumentTile_spec (documented : workbench.Documented) (tile : Tile) :
    ∃ tree, space.placeDocumentTile workbench tile = { space with tree } ∧
      tree.ids.Perm (tile.id :: space.tree.ids) :=
  ⟨_, rfl, documented.settle documented.placeBeside⟩

def IsOpen (space : DocumentWorkspace D) (key : DocKey) : Prop :=
  ∃ entry, space.entries[key]? = some entry

structure SoundBut (gone : Option DocKey) (space : DocumentWorkspace D) : Prop where
  entryTile : ∀ (key : DocKey) (entry : Entry D), space.entries[key]? = some entry →
    space.roles[entry.tile]? = some (.document key)
  tileEntry : ∀ (tile : TileId) (key : DocKey), space.roles[tile]? = some (.document key) →
    ∃ entry, space.entries[key]? = some entry ∧ entry.tile = tile
  onceInTree : space.tree.ids.Nodup
  treeRoles : ∀ tile, tile ∈ space.tree.ids ↔ ∃ role : TileRole, space.roles[tile]? = some role
  focusOpen : ∀ key, space.focused = some key → space.IsOpen key ∨ gone = some key
  focusSome : space.focused = none → ∀ key, ¬ space.IsOpen key
  single : ∀ role : TileRole, role.isReading = false → ∀ tile other : TileId, space.roles[tile]? = some role →
    space.roles[other]? = some role → tile = other
  pinnedOpen : ∀ (tile : TileId) kind (key : DocKey), space.roles[tile]? = some (.reading kind (some key)) →
    space.IsOpen key ∨ gone = some key
  lastReading : ∀ tile, space.lastReading = some tile →
    ∃ kind pinned, space.roles[tile]? = some (.reading kind pinned)
  identities : ∀ (key other : DocKey) (entry another : Entry D), space.entries[key]? = some entry →
    space.entries[other]? = some another → entry.identity = another.identity →
      entry.identity ≠ .scratch → key = other
  docsMinted : ∀ key, space.IsOpen key → key < space.nextDoc
  tilesMinted : ∀ (tile : TileId) (role : TileRole), space.roles[tile]? = some role → role ≠ .graph → tile < space.nextTile
  graphTile : ∀ tile : TileId, space.roles[tile]? = some .graph → tile = graphTileId
  docRoom : space.nextDoc < u64Limit
  tileRoom : space.nextTile ≤ graphTileId

abbrev Sound (space : DocumentWorkspace D) : Prop := SoundBut none space

variable {gone : Option DocKey}

theorem SoundBut.retreed (sound : SoundBut gone space) {tree : TileTree}
    (same : tree.ids.Perm space.tree.ids) : SoundBut gone { space with tree } :=
  { sound with
    onceInTree := same.nodup_iff.mpr sound.onceInTree
    treeRoles := fun tile => same.mem_iff.trans (sound.treeRoles tile) }

theorem SoundBut.refocused (sound : SoundBut gone space) {key : DocKey}
    (open_ : space.IsOpen key) : SoundBut gone { space with focused := some key } :=
  { sound with
    focusOpen := by
      rintro other ⟨⟩
      exact Or.inl open_
    focusSome := by
      intro none_
      cases none_ }

theorem SoundBut.lastRead (sound : SoundBut gone space) {tile : TileId} {kind : ReadingKind}
    {pinned : Option DocKey} (reading : space.roles[tile]? = some (.reading kind pinned)) :
    SoundBut gone { space with lastReading := some tile } :=
  { sound with
    lastReading := by
      rintro other ⟨⟩
      exact ⟨kind, pinned, reading⟩ }

theorem SoundBut.focus (documented : workbench.Documented) (sound : SoundBut gone space)
    (key : DocKey) : SoundBut gone (space.focus workbench key) := by
  unfold DocumentWorkspace.focus
  split
  next entry found =>
    exact (sound.retreed (documented.activated space.tree entry.tile)).refocused ⟨entry, found⟩
  · exact sound

theorem SoundBut.activate (documented : workbench.Documented) (sound : SoundBut gone space)
    (tile : TileId) : SoundBut gone (space.activate workbench tile) := by
  have retreed := sound.retreed (documented.activated space.tree tile)
  unfold DocumentWorkspace.activate
  simp only
  split
  next key found =>
    rcases sound.tileEntry tile key found with ⟨entry, held, -⟩
    exact retreed.refocused ⟨entry, held⟩
  next kind pinned found => exact retreed.lastRead found
  · exact retreed

def TileRoom (space : DocumentWorkspace D) (role : TileRole) : Prop :=
  role ≠ .graph → space.nextTile < graphTileId

theorem SoundBut.mint_fresh (sound : SoundBut gone space) {role : TileRole} {title : String}
    (room : space.TileRoom role)
    (unique : role.isReading = false → ∀ tile : TileId, space.roles[tile]? ≠ some role) :
    space.roles[(space.mintTile title role).1.id]? = none := by
  cases found : space.roles[(space.mintTile title role).1.id]? with
  | none => rfl
  | some held =>
    unfold mintTile at found
    have bound := sound.tileRoom
    by_cases asked : role = .graph
    · subst asked
      simp only [if_true] at found
      by_cases graph : held = .graph
      · subst graph
        exact absurd found (unique rfl graphTileId)
      · exact absurd (sound.tilesMinted graphTileId held found graph) (Nat.not_lt.mpr bound)
    · simp only [if_neg asked] at found
      have below := room asked
      by_cases graph : held = .graph
      · subst graph
        exact absurd (sound.graphTile space.nextTile found) (Nat.ne_of_lt below)
      · exact absurd (sound.tilesMinted space.nextTile held found graph) (Nat.lt_irrefl _)

theorem SoundBut.added (sound : SoundBut gone space) {after : DocumentWorkspace D} {id : TileId}
    {role : TileRole} (fresh : space.roles[id]? = none)
    (unique : role.isReading = false → ∀ tile : TileId, space.roles[tile]? ≠ some role)
    (notDocument : ∀ key, role ≠ .document key)
    (pinOpen : ∀ kind key, role = .reading kind (some key) → space.IsOpen key)
    (entries : after.entries = space.entries) (roles : after.roles = space.roles.insert id role)
    (placed : after.tree.ids.Perm (id :: space.tree.ids)) (focused : after.focused = space.focused)
    (lastReading : after.lastReading = space.lastReading) (docs : after.nextDoc = space.nextDoc)
    (tiles : space.nextTile ≤ after.nextTile ∧ after.nextTile ≤ graphTileId)
    (minted : role ≠ .graph → id < after.nextTile) (graph : role = .graph → id = graphTileId) :
    SoundBut gone after := by
  have looked : ∀ (tile : TileId) (found : TileRole), after.roles[tile]? = some found ↔
      tile = id ∧ found = role ∨ space.roles[tile]? = some found := by
    intro tile found
    rw [roles, getElem?_insert_fresh _ fresh]
  have opens : ∀ key, after.IsOpen key ↔ space.IsOpen key := by
    intro key
    rw [IsOpen, IsOpen, entries]
  refine ⟨?_, ?_, ?_, ?_, ?_, ?_, ?_, ?_, ?_, ?_, ?_, ?_, ?_, ?_, ?_⟩
  · intro key entry held
    rw [entries] at held
    exact (looked _ _).mpr (Or.inr (sound.entryTile key entry held))
  · intro tile key found
    rw [entries]
    rcases (looked _ _).mp found with ⟨-, same⟩ | before
    · exact absurd same.symm (notDocument key)
    · exact sound.tileEntry tile key before
  · rw [placed.nodup_iff, List.nodup_cons]
    refine ⟨?_, sound.onceInTree⟩
    intro inside
    rcases (sound.treeRoles id).mp inside with ⟨held, found⟩
    rw [fresh] at found
    cases found
  · intro tile
    rw [placed.mem_iff, List.mem_cons, sound.treeRoles]
    simp only [looked]
    constructor
    · rintro (same | ⟨held, found⟩)
      · exact ⟨role, Or.inl ⟨same, rfl⟩⟩
      · exact ⟨held, Or.inr found⟩
    · rintro ⟨held, ⟨same, -⟩ | found⟩
      · exact Or.inl same
      · exact Or.inr ⟨held, found⟩
  · intro key
    rw [focused, opens]
    exact sound.focusOpen key
  · intro none_ key
    rw [opens]
    exact sound.focusSome (focused ▸ none_) key
  · intro wanted plain tile other first second
    rcases (looked _ _).mp first with ⟨here, rfl⟩ | before
    · rcases (looked _ _).mp second with ⟨there, -⟩ | elsewhere
      · rw [here, there]
      · exact absurd elsewhere (unique plain other)
    · rcases (looked _ _).mp second with ⟨there, rfl⟩ | elsewhere
      · exact absurd before (unique plain tile)
      · exact sound.single wanted plain tile other before elsewhere
  · intro tile kind key found
    rw [opens]
    rcases (looked _ _).mp found with ⟨-, same⟩ | before
    · exact Or.inl (pinOpen kind key same.symm)
    · exact sound.pinnedOpen tile kind key before
  · intro tile last
    rcases sound.lastReading tile (lastReading ▸ last) with ⟨kind, pinned, found⟩
    exact ⟨kind, pinned, (looked _ _).mpr (Or.inr found)⟩
  · rw [entries]
    exact sound.identities
  · intro key
    rw [opens, docs]
    exact sound.docsMinted key
  · intro tile held found other
    rcases (looked _ _).mp found with ⟨rfl, rfl⟩ | before
    · exact minted other
    · exact Nat.lt_of_lt_of_le (sound.tilesMinted tile held before other) tiles.1
  · intro tile found
    rcases (looked _ _).mp found with ⟨rfl, same⟩ | before
    · exact graph same.symm
    · exact sound.graphTile tile before
  · rw [docs]
    exact sound.docRoom
  · exact tiles.2

theorem SoundBut.mint_counts (sound : SoundBut gone space) {role : TileRole} {title : String}
    (room : space.TileRoom role) :
    (space.nextTile ≤ (space.mintTile title role).2.nextTile ∧
      (space.mintTile title role).2.nextTile ≤ graphTileId) ∧
    (role ≠ .graph → (space.mintTile title role).1.id < (space.mintTile title role).2.nextTile) ∧
    (role = .graph → (space.mintTile title role).1.id = graphTileId) := by
  have bound := sound.tileRoom
  unfold mintTile
  by_cases asked : role = .graph
  · simp only [asked, if_true]
    exact ⟨⟨Nat.le_refl _, bound⟩, fun other => absurd rfl other, fun _ => trivial⟩
  · have below := room asked
    have small : space.nextTile + 1 < u64Limit := by
      unfold graphTileId at below
      unfold u64Limit
      omega
    simp only [if_neg asked, Nat.mod_eq_of_lt small]
    exact ⟨⟨Nat.le_succ _, below⟩, fun _ => Nat.lt_succ_self _, fun graph => absurd graph asked⟩

theorem SoundBut.minted (sound : SoundBut gone space) {role : TileRole} {title : String}
    {tree : TileTree} (room : space.TileRoom role)
    (unique : role.isReading = false → ∀ tile : TileId, space.roles[tile]? ≠ some role)
    (notDocument : ∀ key, role ≠ .document key)
    (pinOpen : ∀ kind key, role = .reading kind (some key) → space.IsOpen key)
    (placed : tree.ids.Perm ((space.mintTile title role).1.id :: space.tree.ids)) :
    SoundBut gone { (space.mintTile title role).2 with tree } := by
  rcases @SoundBut.mint_counts D space gone sound role title room with ⟨tiles, minted, graph⟩
  exact sound.added (sound.mint_fresh room unique) unique notDocument pinOpen rfl rfl placed rfl rfl
    rfl tiles minted graph

theorem isOpen_iff {key : DocKey} : space.IsOpen key ↔ key ∈ space.entries := by
  rw [IsOpen, Std.ExtTreeMap.mem_iff_isSome_getElem?, Option.isSome_iff_exists]

theorem firstTile_eq_some {wanted : TileId → TileRole → Bool} {tile : TileId}
    (found : space.firstTile wanted = some tile) :
    ∃ role : TileRole, space.roles[tile]? = some role ∧ wanted tile role = true := by
  rcases Option.map_eq_some_iff.mp found with ⟨⟨held, role⟩, first, rfl⟩
  have chosen := List.find?_some first
  exact ⟨role, Std.ExtTreeMap.mem_toList_iff_getElem?_eq_some.mp (List.mem_of_find?_eq_some first),
    chosen⟩

theorem firstTile_eq_none {wanted : TileId → TileRole → Bool}
    (none_ : space.firstTile wanted = none) (tile : TileId) (role : TileRole)
    (held : space.roles[tile]? = some role) : wanted tile role = false := by
  rw [firstTile, Option.map_eq_none_iff, List.find?_eq_none] at none_
  exact Bool.eq_false_iff.mpr
    (none_ (tile, role) (Std.ExtTreeMap.mem_toList_iff_getElem?_eq_some.mpr held))

theorem absent_of_firstTile_eq_none {role : TileRole}
    (none_ : (space.firstTile fun _ held => decide (held = role)) = none) (tile : TileId) :
    space.roles[tile]? ≠ some role := by
  intro held
  have other := firstTile_eq_none none_ tile role held
  simp at other

theorem firstEntry_eq_some {key : DocKey} (found : space.firstEntry = some key) :
    space.IsOpen key := by
  rw [isOpen_iff, ← Std.ExtTreeMap.mem_keys]
  exact List.mem_of_mem_head? found

theorem firstEntry_eq_none (none_ : space.firstEntry = none) (key : DocKey) :
    ¬ space.IsOpen key := by
  rw [isOpen_iff, ← Std.ExtTreeMap.mem_keys, List.head?_eq_none_iff.mp none_]
  exact List.not_mem_nil

theorem find_eq_none {identity : DocIdentity} (none_ : space.find identity = none)
    (named : identity ≠ .scratch) (key : DocKey) (entry : Entry D)
    (held : space.entries[key]? = some entry) : entry.identity ≠ identity := by
  rw [find, if_neg named, Option.map_eq_none_iff, List.find?_eq_none] at none_
  have other := none_ (key, entry) (Std.ExtTreeMap.mem_toList_iff_getElem?_eq_some.mpr held)
  simpa using other

theorem mem_readings {tile : TileId} {kind : ReadingKind} {pinned : Option DocKey} :
    (tile, kind, pinned) ∈ space.readings ↔ space.roles[tile]? = some (.reading kind pinned) := by
  rw [← Std.ExtTreeMap.mem_toList_iff_getElem?_eq_some, readings, List.mem_filterMap]
  constructor
  · rintro ⟨⟨held, role⟩, member, read⟩
    cases role <;> simp_all
  · intro member
    exact ⟨(tile, .reading kind pinned), member, rfl⟩

theorem SoundBut.addedDocument (sound : Sound space) {after : DocumentWorkspace D} {id : TileId}
    {key : DocKey} {entry : Entry D} (fresh : space.roles[id]? = none) (tile : entry.tile = id)
    (closed : ¬ space.IsOpen key) (other : space.find entry.identity = none)
    (entries : after.entries = space.entries.insert key entry)
    (roles : after.roles = space.roles.insert id (.document key))
    (placed : after.tree.ids.Perm (id :: space.tree.ids)) (focused : after.focused = some key)
    (lastReading : after.lastReading = space.lastReading)
    (docs : key < after.nextDoc ∧ space.nextDoc ≤ after.nextDoc ∧ after.nextDoc < u64Limit)
    (tiles : id < after.nextTile ∧ space.nextTile ≤ after.nextTile ∧
      after.nextTile ≤ graphTileId) : Sound after := by
  have looked : ∀ (tile : TileId) (found : TileRole), after.roles[tile]? = some found ↔
      tile = id ∧ found = .document key ∨ space.roles[tile]? = some found := by
    intro tile found
    rw [roles, getElem?_insert_fresh _ fresh]
  have unheld : space.entries[key]? = none := by
    cases held : space.entries[key]? with
    | none => rfl
    | some found => exact absurd ⟨found, held⟩ closed
  have entered : ∀ (query : DocKey) (found : Entry D), after.entries[query]? = some found ↔
      query = key ∧ found = entry ∨ space.entries[query]? = some found := by
    intro query found
    rw [entries, getElem?_insert_fresh _ unheld]
  have opened : after.IsOpen key := ⟨entry, (entered _ _).mpr (Or.inl ⟨rfl, rfl⟩)⟩
  have still : ∀ query, space.IsOpen query → after.IsOpen query := by
    rintro query ⟨found, held⟩
    exact ⟨found, (entered _ _).mpr (Or.inr held)⟩
  have untiled : ∀ held : TileId, space.roles[held]? ≠ some (.document key) := by
    intro held found
    rcases sound.tileEntry held key found with ⟨entry, present, -⟩
    exact closed ⟨entry, present⟩
  refine ⟨?_, ?_, ?_, ?_, ?_, ?_, ?_, ?_, ?_, ?_, ?_, ?_, ?_, ?_, ?_⟩
  · intro query found held
    rcases (entered _ _).mp held with ⟨rfl, rfl⟩ | before
    · exact (looked _ _).mpr (Or.inl ⟨tile, rfl⟩)
    · exact (looked _ _).mpr (Or.inr (sound.entryTile query found before))
  · intro held query found
    rcases (looked _ _).mp found with ⟨rfl, same⟩ | before
    · cases same
      exact ⟨entry, (entered _ _).mpr (Or.inl ⟨rfl, rfl⟩), tile⟩
    · rcases sound.tileEntry held query before with ⟨was, present, same⟩
      exact ⟨was, (entered _ _).mpr (Or.inr present), same⟩
  · rw [placed.nodup_iff, List.nodup_cons]
    refine ⟨?_, sound.onceInTree⟩
    intro inside
    rcases (sound.treeRoles id).mp inside with ⟨held, found⟩
    rw [fresh] at found
    cases found
  · intro held
    rw [placed.mem_iff, List.mem_cons, sound.treeRoles]
    simp only [looked]
    constructor
    · rintro (same | ⟨role, found⟩)
      · exact ⟨_, Or.inl ⟨same, rfl⟩⟩
      · exact ⟨role, Or.inr found⟩
    · rintro ⟨role, ⟨same, -⟩ | found⟩
      · exact Or.inl same
      · exact Or.inr ⟨role, found⟩
  · intro query same
    rw [focused] at same
    cases same
    exact Or.inl opened
  · intro none_
    rw [focused] at none_
    cases none_
  · intro wanted plain one two first second
    rcases (looked _ _).mp first with ⟨here, rfl⟩ | before
    · rcases (looked _ _).mp second with ⟨there, -⟩ | elsewhere
      · rw [here, there]
      · exact absurd elsewhere (untiled two)
    · rcases (looked _ _).mp second with ⟨there, rfl⟩ | elsewhere
      · exact absurd before (untiled one)
      · exact sound.single wanted plain one two before elsewhere
  · intro held kind query found
    rcases (looked _ _).mp found with ⟨-, same⟩ | before
    · cases same
    · exact (sound.pinnedOpen held kind query before).imp_left (still query)
  · intro held last
    rcases sound.lastReading held (lastReading ▸ last) with ⟨kind, pinned, found⟩
    exact ⟨kind, pinned, (looked _ _).mpr (Or.inr found)⟩
  · intro one two first second firstHeld secondHeld same named
    rcases (entered _ _).mp firstHeld with ⟨here, rfl⟩ | before
    · rcases (entered _ _).mp secondHeld with ⟨there, -⟩ | elsewhere
      · rw [here, there]
      · exact absurd same.symm (find_eq_none other named two second elsewhere)
    · rcases (entered _ _).mp secondHeld with ⟨there, rfl⟩ | elsewhere
      · exact absurd same (find_eq_none other (same ▸ named) one first before)
      · exact sound.identities one two first second before elsewhere same named
  · rintro query ⟨found, held⟩
    rcases (entered _ _).mp held with ⟨rfl, -⟩ | before
    · exact docs.1
    · exact Nat.lt_of_lt_of_le (sound.docsMinted query ⟨found, before⟩) docs.2.1
  · intro held role found plain
    rcases (looked _ _).mp found with ⟨rfl, -⟩ | before
    · exact tiles.1
    · exact Nat.lt_of_lt_of_le (sound.tilesMinted held role before plain) tiles.2.1
  · intro held found
    rcases (looked _ _).mp found with ⟨-, same⟩ | before
    · cases same
    · exact sound.graphTile held before
  · exact docs.2.2
  · exact tiles.2.2

end DocumentWorkspace

end KnotEditor.Desktop.Documents
