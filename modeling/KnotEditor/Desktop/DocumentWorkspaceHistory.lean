import KnotEditor.Desktop.DocumentWorkspaceRuns

/-! Runs of the document workspace: what holds in every state reached, and what never comes back. -/

namespace KnotEditor.Desktop.Documents

open KeyedCollections

namespace DocumentWorkspace

variable {D : Type} {workbench : Workbench} {space after : DocumentWorkspace D}

structure Grows (space after : DocumentWorkspace D) : Prop where
  docs : ∀ key, after.IsOpen key → space.IsOpen key ∨ space.nextDoc ≤ key
  tiles : ∀ (tile : TileId) (role : TileRole), after.roles[tile]? = some role →
    (∃ before : TileRole, space.roles[tile]? = some before) ∨ space.nextTile ≤ tile
  nextDoc : space.nextDoc ≤ after.nextDoc
  nextTile : space.nextTile ≤ after.nextTile

theorem Grows.refl (space : DocumentWorkspace D) : Grows space space where
  docs _ open_ := Or.inl open_
  tiles _ role found := Or.inl ⟨role, found⟩
  nextDoc := Nat.le_refl _
  nextTile := Nat.le_refl _

theorem Grows.trans {middle : DocumentWorkspace D} (first : Grows space middle)
    (second : Grows middle after) : Grows space after where
  docs key open_ := by
    rcases second.docs key open_ with before | minted
    · exact first.docs key before
    · exact Or.inr (Nat.le_trans first.nextDoc minted)
  tiles tile role found := by
    rcases second.tiles tile role found with ⟨before, held⟩ | minted
    · exact first.tiles tile before held
    · exact Or.inr (Nat.le_trans first.nextTile minted)
  nextDoc := Nat.le_trans first.nextDoc second.nextDoc
  nextTile := Nat.le_trans first.nextTile second.nextTile

theorem Grows.of_shrunk (docs : ∀ key, after.IsOpen key → space.IsOpen key)
    (tiles : ∀ (tile : TileId) (role : TileRole), after.roles[tile]? = some role →
      ∃ before : TileRole, space.roles[tile]? = some before)
    (nextDoc : after.nextDoc = space.nextDoc) (nextTile : after.nextTile = space.nextTile) :
    Grows space after where
  docs key open_ := Or.inl (docs key open_)
  tiles tile role found := Or.inl (tiles tile role found)
  nextDoc := Nat.le_of_eq nextDoc.symm
  nextTile := Nat.le_of_eq nextTile.symm

theorem Grows.of_same (entries : after.entries = space.entries) (roles : after.roles = space.roles)
    (nextDoc : after.nextDoc = space.nextDoc) (nextTile : after.nextTile = space.nextTile) :
    Grows space after := by
  refine Grows.of_shrunk ?_ ?_ nextDoc nextTile
  · intro key open_
    rwa [IsOpen, entries] at open_
  · intro tile role found
    exact ⟨role, roles ▸ found⟩

theorem grows_focus (key : DocKey) : Grows space (space.focus workbench key) := by
  unfold focus
  split
  · exact .of_same rfl rfl rfl rfl
  · exact .refl space

theorem grows_activate (tile : TileId) : Grows space (space.activate workbench tile) := by
  unfold activate
  simp only
  split <;> exact .of_same rfl rfl rfl rfl

theorem grows_closeReadings (workbench : Workbench) (space : DocumentWorkspace D)
    (tiles : List TileId) :
    Grows space (tiles.foldl (closeReading workbench) space) := by
  rcases @closeReadings_spec D workbench space tiles with ⟨entries, docs, counted, roles⟩
  refine .of_shrunk ?_ ?_ docs counted
  · intro key open_
    rwa [IsOpen, entries] at open_
  · intro tile role found
    exact ⟨role, ((roles tile role).mp found).2⟩

theorem grows_close (tile : TileId) : Grows space (space.close workbench tile).2 := by
  have removed : Grows space (space.removeTile workbench tile) := by
    rcases removeTile_spec workbench space tile with ⟨entries, roles, -, -, docs, counted⟩
    refine .of_shrunk ?_ ?_ docs counted
    · intro key open_
      rwa [IsOpen, entries] at open_
    · intro held role found
      rw [roles, getElem?_erase_eq_some_iff] at found
      exact ⟨role, found.2⟩
  unfold close
  cases space.roles[tile]? with
  | none => exact .refl space
  | some role =>
    cases role with
    | document key =>
      simp only
      split
      · exact removed
      next entry present =>
        have emptied : Grows (space.removeTile workbench tile)
            { space.removeTile workbench tile with
              entries := (space.removeTile workbench tile).entries.erase key } := by
          refine .of_shrunk ?_ (fun _ role found => ⟨role, found⟩) rfl rfl
          rintro query ⟨held, found⟩
          exact ⟨held, ((getElem?_erase_eq_some_iff _).mp found).2⟩
        let unlisted : DocumentWorkspace D := { space.removeTile workbench tile with
          entries := (space.removeTile workbench tile).entries.erase key }
        have closed := grows_closeReadings workbench unlisted (unlisted.readingsPinnedTo key)
        refine ((removed.trans emptied).trans closed).trans ?_
        split
        · exact .of_same rfl rfl rfl rfl
        · exact .refl _
    | reading kind pinned => exact removed
    | navigator => exact removed
    | graph => exact removed
    | metadata site page => exact removed
    | site site => exact removed

theorem Sound.grows_minted (sound : Sound space) {role : TileRole} (title : String)
    (room : space.TileRoom role) (entries : after.entries = space.entries)
    (roles : after.roles = (space.mintTile title role).2.roles)
    (nextDoc : after.nextDoc = space.nextDoc)
    (nextTile : after.nextTile = (space.mintTile title role).2.nextTile) : Grows space after := by
  rcases @SoundBut.mint_counts D space none sound role title room with ⟨counted, -, -⟩
  refine ⟨?_, ?_, Nat.le_of_eq nextDoc.symm, nextTile ▸ counted.1⟩
  · intro key open_
    rw [IsOpen, entries] at open_
    exact Or.inl open_
  · intro tile held found
    rw [roles] at found
    rcases (getElem?_insert_eq_some_iff _).mp found with ⟨rfl, -⟩ | ⟨-, before⟩
    · refine Or.inr ?_
      split
      · exact sound.tileRoom
      · exact Nat.le_refl _
    · exact Or.inl ⟨held, before⟩

inductive Operation (D : Type)
  | open_ (identity : DocIdentity) (title : String) (doc : D)
  | close (tile : TileId)
  | focus (key : DocKey)
  | activate (tile : TileId)
  | setIdentity (key : DocKey) (identity : DocIdentity)
  | setPinned (tile : TileId) (pinned : Option DocKey)
  | openReading (kind : ReadingKind) (pinned : Option DocKey) (title : String)
  | openNavigator (title : String)
  | openGraph (title : String)
  | openSiteTile (site : SiteKey) (title : String)
  | openMetadata (site : SiteKey) (page title : String)
  | prepareLastDocumentClose (document : DocKey) (title : String)

def step (workbench : Workbench) (space : DocumentWorkspace D) : Operation D → DocumentWorkspace D
  | .open_ identity title doc => (space.open_ workbench identity title doc).2
  | .close tile => (space.close workbench tile).2
  | .focus key => space.focus workbench key
  | .activate tile => space.activate workbench tile
  | .setIdentity key identity => space.setIdentity key identity
  | .setPinned tile pinned => space.setPinned tile pinned
  | .openReading kind pinned title => (space.openReading workbench kind pinned title).2
  | .openNavigator title => (space.openNavigator workbench title).2
  | .openGraph title => (space.openGraph workbench title).2
  | .openSiteTile site title => (space.openSiteTile workbench site title).2
  | .openMetadata site page title => (space.openMetadata workbench site page title).2
  | .prepareLastDocumentClose document title =>
    (space.prepareLastDocumentClose workbench document title).2

def run (workbench : Workbench) (operations : List (Operation D)) : DocumentWorkspace D :=
  operations.foldl (step workbench) new

/-- What an operation asks of the workspace it meets: a tile to open has somewhere to go, a pin
names an open document, a new identity is nobody else's, and the counters are not used up. -/
def Fits (space : DocumentWorkspace D) : Operation D → Prop
  | .open_ identity _ _ => space.find identity = none →
      space.nextDoc + 1 < u64Limit ∧ space.nextTile < graphTileId
  | .setIdentity key identity => identity ≠ .scratch → ∀ (other : DocKey) (entry : Entry D),
      space.entries[other]? = some entry → other ≠ key → entry.identity ≠ identity
  | .setPinned tile pinned => ∀ kind old, space.roles[tile]? = some (.reading kind old) →
      ∀ key, pinned = some key → space.IsOpen key
  | .openReading _ pinned _ => (∀ key, pinned = some key → space.IsOpen key) ∧
      space.nextTile < graphTileId ∧ space.ReadingRoom
  | .openNavigator _ => space.navigator = none → space.nextTile < graphTileId ∧ space.LeftRoom
  | .openSiteTile site _ => space.siteTile site = none →
      space.nextTile < graphTileId ∧ space.LeftRoom
  | .openMetadata site page _ => space.metadataTile site page = none →
      space.nextTile < graphTileId
  | _ => True

theorem Sound.step (documented : workbench.Documented) (space : DocumentWorkspace D)
    (operation : Operation D) (sound : Sound space) (fits : space.Fits operation) :
    Sound (space.step workbench operation) := by
  cases operation with
  | open_ identity title doc => exact sound.open_ documented identity title doc fits
  | close tile => exact sound.close documented tile
  | focus key => exact SoundBut.focus documented sound key
  | activate tile => exact SoundBut.activate documented sound tile
  | setIdentity key identity => exact sound.setIdentity key identity fits
  | setPinned tile pinned => exact sound.setPinned tile pinned fits
  | openReading kind pinned title =>
    exact sound.openReading documented kind pinned title fits.1 fits.2.1 fits.2.2
  | openNavigator title => exact sound.openNavigator documented title fits
  | openGraph title => exact sound.openGraph documented title
  | openSiteTile site title => exact sound.openSiteTile documented site title fits
  | openMetadata site page title => exact sound.openMetadata documented site page title fits
  | prepareLastDocumentClose document title =>
    exact sound.prepareLastDocumentClose documented document title

theorem Sound.grows_openLeft (sound : Sound space) (title : String) {role : TileRole}
    (room : space.TileRoom role) : Grows space (space.openLeft workbench title role).2 :=
  sound.grows_minted title room rfl rfl rfl rfl

theorem Sound.grows_placed (sound : Sound space) {title : String} {role : TileRole}
    (room : space.TileRoom role) :
    Grows space ((space.mintTile title role).2.placeDocumentTile workbench
      (space.mintTile title role).1) :=
  sound.grows_minted title room rfl rfl rfl rfl

theorem Sound.grows_open (sound : Sound space) (identity : DocIdentity) (title : String) (doc : D)
    (fits : space.Fits (.open_ identity title doc)) :
    Grows space (space.open_ workbench identity title doc).2 := by
  unfold DocumentWorkspace.open_
  split
  · exact grows_focus _
  next absent =>
    rcases fits absent with ⟨small, room⟩
    refine .trans ?_ (grows_focus _)
    have minted : Grows space (space.mintTile title (.document space.nextDoc)).2 :=
      sound.grows_minted title (fun _ => room) rfl rfl rfl rfl
    refine ⟨?_, minted.tiles, ?_, minted.nextTile⟩
    · rintro key ⟨entry, held⟩
      rcases (getElem?_insert_eq_some_iff _).mp held with ⟨rfl, -⟩ | ⟨-, before⟩
      · exact Or.inr (Nat.le_refl _)
      · exact Or.inl ⟨entry, before⟩
    · change space.nextDoc ≤ (space.nextDoc + 1) % u64Limit
      rw [Nat.mod_eq_of_lt small]
      exact Nat.le_succ _

theorem Sound.grows (space : DocumentWorkspace D) (operation : Operation D) (sound : Sound space)
    (fits : space.Fits operation) : Grows space (space.step workbench operation) := by
  cases operation with
  | open_ identity title doc => exact sound.grows_open identity title doc fits
  | close tile => exact grows_close tile
  | focus key => exact grows_focus key
  | activate tile => exact grows_activate tile
  | setIdentity key identity =>
    change Grows space (space.setIdentity key identity)
    unfold DocumentWorkspace.setIdentity
    split
    next entry found =>
      refine .of_shrunk ?_ (fun _ role held => ⟨role, held⟩) rfl rfl
      rintro query ⟨held, present⟩
      rcases (getElem?_insert_eq_some_iff _).mp present with ⟨rfl, -⟩ | ⟨-, before⟩
      · exact ⟨entry, found⟩
      · exact ⟨held, before⟩
    · exact .refl space
  | setPinned tile pinned =>
    change Grows space (space.setPinned tile pinned)
    unfold DocumentWorkspace.setPinned
    split
    next kind old found =>
      refine .of_shrunk (fun _ open_ => open_) ?_ rfl rfl
      intro held role shown
      rcases (getElem?_insert_eq_some_iff _).mp shown with ⟨rfl, -⟩ | ⟨-, before⟩
      · exact ⟨_, found⟩
      · exact ⟨role, before⟩
    · exact .refl space
  | openReading kind pinned title => exact sound.grows_minted title (fun _ => fits.2.1) rfl rfl rfl rfl
  | openNavigator title =>
    change Grows space (space.openNavigator workbench title).2
    unfold DocumentWorkspace.openNavigator
    split
    · exact .refl space
    next absent => exact sound.grows_openLeft title (fun _ => (fits absent).1)
  | openGraph title =>
    change Grows space (space.openGraph workbench title).2
    unfold DocumentWorkspace.openGraph
    split
    · exact grows_activate _
    · exact (sound.grows_placed (by simp [TileRoom])).trans (grows_activate _)
  | openSiteTile site title =>
    change Grows space (space.openSiteTile workbench site title).2
    unfold DocumentWorkspace.openSiteTile
    split
    · exact grows_activate _
    next absent =>
      exact (sound.grows_openLeft title (fun _ => (fits absent).1)).trans (grows_activate _)
  | openMetadata site page title =>
    change Grows space (space.openMetadata workbench site page title).2
    unfold DocumentWorkspace.openMetadata
    split
    · exact grows_activate _
    next absent => exact (sound.grows_placed (fun _ => fits absent)).trans (grows_activate _)
  | prepareLastDocumentClose document title =>
    change Grows space (space.prepareLastDocumentClose workbench document title).2
    unfold DocumentWorkspace.prepareLastDocumentClose
    split
    · exact .refl space
    · split
      · exact grows_activate _
      · split
        · exact .refl space
        · have minted : ∀ tree, Grows space { (space.mintTile title .graph).2 with tree } :=
            fun tree => sound.grows_minted title (by simp [TileRoom]) rfl rfl rfl rfl
          simp only
          split
          · exact (minted _).trans (grows_activate _)
          · refine (minted space.tree).trans (.of_shrunk (fun _ open_ => open_) ?_ rfl rfl)
            intro tile role found
            exact ⟨role, ((getElem?_erase_eq_some_iff _).mp found).2⟩

theorem sound_new : Sound (new : DocumentWorkspace D) where
  entryTile _ _ held := by simp [new] at held
  tileEntry _ _ held := by simp [new] at held
  onceInTree := List.nodup_nil
  treeRoles tile := by simp [new, TileTree.ids, TileTree.tiles]
  focusOpen _ same := by simp [new] at same
  focusSome _ key := by simp [new, IsOpen]
  single _ _ _ _ held _ := by simp [new] at held
  pinnedOpen _ _ _ held := by simp [new] at held
  lastReading _ last := by simp [new] at last
  identities _ _ _ _ held _ _ _ := by simp [new] at held
  docsMinted _ open_ := by simp [new, IsOpen] at open_
  tilesMinted _ _ held _ := by simp [new] at held
  graphTile _ held := by simp [new] at held
  docRoom := by
    change 1 < 2 ^ 64
    decide
  tileRoom := by
    change 1 ≤ 2 ^ 64 - 1
    decide

/-- A key or a tile that was in use and then was not never comes back, but for the Graph's tile. -/
structure NeverReused (first second third : DocumentWorkspace D) : Prop where
  docs : ∀ key, first.IsOpen key → ¬ second.IsOpen key → ¬ third.IsOpen key
  tiles : ∀ tile : TileId, tile ≠ graphTileId → (∃ role : TileRole, first.roles[tile]? = some role) →
    second.roles[tile]? = none → third.roles[tile]? = none

theorem Sound.neverReused {first second third : DocumentWorkspace D} (sound : Sound first)
    (early : Grows first second) (late : Grows second third) : NeverReused first second third where
  docs key used unused again := by
    rcases late.docs key again with still | minted
    · exact unused still
    · exact absurd (sound.docsMinted key used)
        (Nat.not_lt.mpr (Nat.le_trans early.nextDoc minted))
  tiles tile reserved used unused := by
    rcases used with ⟨role, shown⟩
    cases again : third.roles[tile]? with
    | none => rfl
    | some later =>
      have plain : role ≠ .graph := by
        rintro rfl
        exact reserved (sound.graphTile tile shown)
      rcases late.tiles tile later again with ⟨before, held⟩ | minted
      · rw [unused] at held
        cases held
      · exact absurd (sound.tilesMinted tile role shown plain)
          (Nat.not_lt.mpr (Nat.le_trans early.nextTile minted))

theorem sound_foldl (documented : workbench.Documented) (operations : List (Operation D))
    (sound : Sound space) (fits : Run.Along (step workbench) Fits space operations) :
    Sound (operations.foldl (step workbench) space) ∧
      Grows space (operations.foldl (step workbench) space) := by
  induction operations generalizing space with
  | nil => exact ⟨sound, .refl space⟩
  | cons operation rest ih =>
    rcases ih (Sound.step documented space operation sound fits.1) fits.2 with ⟨kept, grown⟩
    exact ⟨kept, (Sound.grows space operation sound fits.1).trans grown⟩

/-- The workspace invariant holds in every state of a run whose operations fit. -/
theorem document_workspace_invariant (documented : workbench.Documented)
    (operations : List (Operation D)) (fits : Run.Along (step workbench) Fits new operations) :
    (∀ front back, operations = front ++ back → Sound (run workbench front)) ∧
      ∀ front middle back, operations = front ++ middle ++ back →
        NeverReused (run workbench front) (run workbench (front ++ middle))
          (run workbench operations) := by
  constructor
  · rintro front back rfl
    exact (sound_foldl documented front sound_new ((Run.along_append _ _ _).mp fits).1).1
  · rintro front middle back rfl
    rcases (Run.along_append _ _ _).mp fits with ⟨earlier, last⟩
    rcases (Run.along_append _ _ _).mp earlier with ⟨first, second⟩
    rcases sound_foldl documented front sound_new first with ⟨begun, -⟩
    rcases sound_foldl documented middle begun second with ⟨reached, early⟩
    have whole : run workbench (front ++ middle) =
        middle.foldl (step workbench) (run workbench front) := List.foldl_append
    have last' : Run.Along (step workbench) Fits
        (middle.foldl (step workbench) (run workbench front)) back := by
      rw [List.foldl_append] at last
      exact last
    rcases sound_foldl documented back reached last' with ⟨-, late⟩
    have final : run workbench (front ++ middle ++ back) =
        back.foldl (step workbench) (middle.foldl (step workbench) (run workbench front)) := by
      rw [← whole]
      exact List.foldl_append
    rw [final, whole]
    exact begun.neverReused early late

end DocumentWorkspace

namespace TileTree

variable (target : TileId) (tile : Tile)

def insertTab : List Tile → List Tile
  | [] => []
  | tab :: rest => if tab.id = target then tab :: tile :: rest else tab :: insertTab rest

mutual

def insertAfter : TileTree → TileTree
  | stack tabs active => stack (insertTab target tile tabs) active
  | split children => split (insertAfterFirst children)

def insertAfterFirst : List TileTree → List TileTree
  | [] => []
  | child :: rest =>
    if target ∈ child.ids then child.insertAfter :: rest else child :: insertAfterFirst rest

end

mutual

def splitOff (edge : Edge) : TileTree → TileTree
  | stack tabs active =>
    split (match edge with
      | .left => [stack [tile] 0, stack tabs active]
      | .right => [stack tabs active, stack [tile] 0])
  | split children => split (splitOffFirst edge children)

def splitOffFirst (edge : Edge) : List TileTree → List TileTree
  | [] => []
  | child :: rest =>
    if target ∈ child.ids then child.splitOff edge :: rest else child :: splitOffFirst edge rest

end

mutual

def activate : TileTree → TileTree
  | stack tabs active => stack tabs ((tabs.findIdx? fun tab => tab.id == target).getD active)
  | split children => split (activateAll children)

def activateAll : List TileTree → List TileTree
  | [] => []
  | child :: rest => child.activate :: activateAll rest

end

mutual

def remove : TileTree → TileTree
  | stack tabs active => stack (tabs.filter fun tab => decide (tab.id ≠ target)) active
  | split children => split (removeAll children)

def removeAll : List TileTree → List TileTree
  | [] => []
  | child :: rest => child.remove :: removeAll rest

end

variable {target : TileId} {tile : Tile}

theorem insertTab_ids {tabs : List Tile} (inside : target ∈ tabs.map Tile.id) :
    ((insertTab target tile tabs).map Tile.id).Perm (tile.id :: tabs.map Tile.id) := by
  induction tabs with
  | nil => cases inside
  | cons tab rest ih =>
    unfold insertTab
    split
    · exact List.Perm.swap tile.id tab.id _
    next other =>
      have later : target ∈ rest.map Tile.id := by
        rcases List.mem_cons.mp inside with same | later
        · exact absurd same.symm other
        · exact later
      exact ((ih later).cons tab.id).trans (List.Perm.swap tile.id tab.id _)

def idsOf (children : List TileTree) : List TileId := (tilesOf children).map Tile.id

theorem idsOf_cons (child : TileTree) (rest : List TileTree) :
    idsOf (child :: rest) = child.ids ++ idsOf rest := by
  rw [idsOf, tilesOf, List.map_append]
  rfl

mutual

theorem insertAfter_ids : ∀ tree : TileTree, target ∈ tree.ids →
    (tree.insertAfter target tile).ids.Perm (tile.id :: tree.ids)
  | stack _ _, inside => insertTab_ids inside
  | split children, inside => insertAfterFirst_ids children inside

theorem insertAfterFirst_ids : ∀ children : List TileTree, target ∈ idsOf children →
    (idsOf (insertAfterFirst target tile children)).Perm (tile.id :: idsOf children)
  | [], inside => by cases inside
  | child :: rest, inside => by
    unfold insertAfterFirst
    split
    next here =>
      rw [idsOf_cons, idsOf_cons]
      exact (insertAfter_ids child here).append_right _
    next elsewhere =>
      rw [idsOf_cons, List.mem_append] at inside
      rw [idsOf_cons, idsOf_cons]
      exact ((insertAfterFirst_ids rest (inside.resolve_left elsewhere)).append_left _).trans
        List.perm_middle

end

mutual

theorem splitOff_ids (edge : Edge) : ∀ tree : TileTree, target ∈ tree.ids →
    (tree.splitOff target tile edge).ids.Perm (tile.id :: tree.ids)
  | stack _ _, inside => by
    cases edge with
    | left => simp [splitOff, ids, tiles, tilesOf]
    | right => simp [splitOff, ids, tiles, tilesOf]
  | split children, inside => splitOffFirst_ids edge children inside

theorem splitOffFirst_ids (edge : Edge) : ∀ children : List TileTree, target ∈ idsOf children →
    (idsOf (splitOffFirst target tile edge children)).Perm (tile.id :: idsOf children)
  | [], inside => by cases inside
  | child :: rest, inside => by
    unfold splitOffFirst
    split
    next here =>
      rw [idsOf_cons, idsOf_cons]
      exact (splitOff_ids edge child here).append_right _
    next elsewhere =>
      rw [idsOf_cons, List.mem_append] at inside
      rw [idsOf_cons, idsOf_cons]
      exact ((splitOffFirst_ids edge rest (inside.resolve_left elsewhere)).append_left _).trans
        List.perm_middle

end

mutual

theorem activate_ids : ∀ tree : TileTree, (tree.activate target).ids = tree.ids
  | stack _ _ => rfl
  | split children => activateAll_ids children

theorem activateAll_ids : ∀ children : List TileTree,
    idsOf (activateAll target children) = idsOf children
  | [] => rfl
  | child :: rest => by
    rw [activateAll, idsOf_cons, idsOf_cons, activate_ids child, activateAll_ids rest]

end

mutual

theorem remove_ids : ∀ tree : TileTree,
    (tree.remove target).ids = tree.ids.filter fun held => decide (held ≠ target)
  | stack tabs active => by
    simp only [remove, ids, tiles, List.filter_map]
    rfl
  | split children => removeAll_ids children

theorem removeAll_ids : ∀ children : List TileTree,
    idsOf (removeAll target children) = (idsOf children).filter fun held => decide (held ≠ target)
  | [] => rfl
  | child :: rest => by
    rw [removeAll, idsOf_cons, idsOf_cons, List.filter_append, remove_ids child,
      removeAll_ids rest]

end

end TileTree

def plainWorkbench : Workbench where
  insertTabAfter tree target tile :=
    if target ∈ tree.ids then (true, tree.insertAfter target tile) else (false, tree)
  splitBeside tree target edge tile :=
    if target ∈ tree.ids then (true, tree.splitOff target tile edge) else (false, tree)
  activated tree tile := tree.activate tile
  closed tree tile := tree.remove tile

theorem plainWorkbench_documented : plainWorkbench.Documented where
  inserted tree target tile inside := by
    simp only [plainWorkbench, inside, if_true, true_and]
    exact tree.insertAfter_ids inside
  notInserted tree target tile outside := by simp only [plainWorkbench, outside, if_false]
  split tree target edge tile inside := by
    simp only [plainWorkbench, inside, if_true, true_and]
    exact tree.splitOff_ids edge inside
  notSplit tree target edge tile outside := by simp only [plainWorkbench, outside, if_false]
  activated tree tile := List.Perm.of_eq tree.activate_ids
  closed tree tile := List.Perm.of_eq tree.remove_ids

namespace DocumentWorkspace

def exampleOperations : List (Operation Unit) :=
  [.open_ (.catalog "a") "a.djot" (), .openReading .preview none "Preview", .openGraph "Graph",
    .close 1]

theorem document_workspace_invariant_of_one_document :
    (∀ front back, exampleOperations = front ++ back → Sound (run plainWorkbench front)) ∧
      ∀ front middle back, exampleOperations = front ++ middle ++ back →
        NeverReused (run plainWorkbench front) (run plainWorkbench (front ++ middle))
          (run plainWorkbench exampleOperations) := by
  refine document_workspace_invariant plainWorkbench_documented exampleOperations ?_
  refine ⟨?_, ⟨?_, ?_, ?_⟩, trivial, trivial, trivial⟩
  · intro absent
    exact ⟨by decide, by decide⟩
  · intro key pinned
    cases pinned
  · decide
  · refine Or.inr (Or.inl ?_)
    decide

/-- With no document open, the Navigator takes the place of the whole split frame. -/
theorem navigator_drops_the_frame :
    plainWorkbench.Documented ∧
      ¬ Sound (run plainWorkbench (exampleOperations ++ [.openNavigator "Navigator"])) := by
  refine ⟨plainWorkbench_documented, ?_⟩
  intro sound
  have shown : (run plainWorkbench (exampleOperations ++ [.openNavigator "Navigator"])).roles[2]? =
      some (.reading .preview none) := by decide
  have lost : 2 ∉ (run plainWorkbench
      (exampleOperations ++ [.openNavigator "Navigator"])).tree.ids := by decide
  exact lost ((sound.treeRoles 2).mpr ⟨_, shown⟩)

end DocumentWorkspace

end KnotEditor.Desktop.Documents
