import Mathlib.Logic.Function.Basic

/-! A file system as directory entries over numbered files: what a change that only adds entries
leaves alone. A path names an entry, and an entry is a file or points on to another path. -/

inductive FileTree.Entry (Path : Type)
  | file (inode : Nat)
  | link (target : Path)
  deriving DecidableEq

/-- `place` is where a path's entry lies, however the path is spelled. A file's number is never
used again: `next` is above all that were. -/
structure FileTree (Path Data : Type) where
  place : Path → Path
  entry : Path → Option (FileTree.Entry Path)
  file : Nat → Data
  next : Nat
  numbered : ∀ spot inode, entry spot = some (.file inode) → inode < next

namespace FileTree

variable {Path Data : Type}

def follow (tree : FileTree Path Data) : Nat → Path → Option (Path × Nat)
  | 0, _ => none
  | hops + 1, spot =>
    match tree.entry spot with
    | none => none
    | some (.file inode) => some (spot, inode)
    | some (.link target) => tree.follow hops (tree.place target)

def maxLinks : Nat := 40

def find (tree : FileTree Path Data) (path : Path) : Option (Path × Nat) :=
  tree.follow (maxLinks + 1) (tree.place path)

def write (tree : FileTree Path Data) (inode : Nat) (data : Data) : FileTree Path Data :=
  { tree with file := Function.update tree.file inode data }

def Named (tree : FileTree Path Data) (inode : Nat) : Prop :=
  ∃ spot, tree.entry spot = some (.file inode)

theorem find_of_entry {tree : FileTree Path Data} {path : Path} {inode : Nat}
    (held : tree.entry (tree.place path) = some (.file inode)) :
    tree.find path = some (tree.place path, inode) := by
  rw [find, follow, held]

theorem entry_of_follow {tree : FileTree Path Data} {hops : Nat} {start spot : Path} {inode : Nat}
    (found : tree.follow hops start = some (spot, inode)) :
    tree.entry spot = some (.file inode) := by
  induction hops generalizing start with
  | zero => cases found
  | succ hops ih =>
    rw [follow] at found
    split at found
    · cases found
    next held =>
      cases found
      exact held
    · exact ih found

theorem lt_next_of_find {tree : FileTree Path Data} {path spot : Path} {inode : Nat}
    (found : tree.find path = some (spot, inode)) : inode < tree.next :=
  tree.numbered spot inode (entry_of_follow found)

theorem isSome_entry_of_find {tree : FileTree Path Data} {path : Path} {found : Path × Nat}
    (led : tree.find path = some found) : (tree.entry (tree.place path)).isSome := by
  rw [find, follow] at led
  split at led
  · cases led
  next held =>
    rw [held]
    rfl
  next held =>
    rw [held]
    rfl

structure Restored (before after : FileTree Path Data) : Prop where
  entry : after.entry = before.entry
  place : after.place = before.place
  files : ∀ inode, inode < before.next → after.file inode = before.file inode

theorem restored_refl (tree : FileTree Path Data) : Restored tree tree := ⟨rfl, rfl, fun _ _ => rfl⟩

theorem Restored.follow {before after : FileTree Path Data} (restored : Restored before after)
    (hops : Nat) (start : Path) : after.follow hops start = before.follow hops start := by
  induction hops generalizing start with
  | zero => rfl
  | succ hops ih =>
    simp only [FileTree.follow, restored.entry, restored.place, ih]

theorem Restored.find {before after : FileTree Path Data} (restored : Restored before after)
    (path : Path) : after.find path = before.find path := by
  rw [FileTree.find, FileTree.find, restored.place, restored.follow]

/-- Every entry apart from those of `lost` is kept, and every file that was numbered. -/
structure SparesBut (lost : Path → Prop) (before after : FileTree Path Data) : Prop where
  entries : ∀ spot entry, before.entry spot = some entry → ¬ lost spot →
    after.entry spot = some entry
  files : ∀ inode, inode < before.next → after.file inode = before.file inode
  next : before.next ≤ after.next
  place : after.place = before.place

abbrev Spares (before after : FileTree Path Data) : Prop := SparesBut (fun _ => False) before after

variable {lost : Path → Prop} {before middle after : FileTree Path Data}

theorem spares_refl (lost : Path → Prop) (tree : FileTree Path Data) : SparesBut lost tree tree :=
  ⟨fun _ _ held _ => held, fun _ _ => rfl, Nat.le_refl _, rfl⟩

theorem SparesBut.weaken (spares : Spares before after) : SparesBut lost before after :=
  ⟨fun spot entry held _ => spares.entries spot entry held id, spares.files, spares.next,
    spares.place⟩

theorem follow_of_spares (spares : Spares before after) {hops : Nat} {start : Path}
    {found : Path × Nat} (led : before.follow hops start = some found) :
    after.follow hops start = some found := by
  induction hops generalizing start with
  | zero => cases led
  | succ hops ih =>
    rw [follow] at led ⊢
    split at led
    · cases led
    next held =>
      rw [spares.entries _ _ held id]
      exact led
    next held =>
      rw [spares.entries _ _ held id, spares.place]
      exact ih led

theorem find_of_spares (spares : Spares before after) {path : Path} {found : Path × Nat}
    (led : before.find path = some found) : after.find path = some found := by
  rw [find, spares.place]
  exact follow_of_spares spares led

section Changes

variable [DecidableEq Path]

def create (tree : FileTree Path Data) (path : Path) (data : Data) : FileTree Path Data where
  place := tree.place
  entry := Function.update tree.entry (tree.place path) (some (.file tree.next))
  file := Function.update tree.file tree.next data
  next := tree.next + 1
  numbered spot inode held := by
    by_cases same : spot = tree.place path
    · rw [same, Function.update_self] at held
      cases held
      exact Nat.lt_succ_self tree.next
    · rw [Function.update_of_ne same] at held
      exact Nat.lt_succ_of_lt (tree.numbered spot inode held)

def remove (tree : FileTree Path Data) (path : Path) : FileTree Path Data where
  place := tree.place
  entry := Function.update tree.entry (tree.place path) none
  file := tree.file
  next := tree.next
  numbered spot inode held := by
    by_cases same : spot = tree.place path
    · rw [same, Function.update_self] at held
      cases held
    · rw [Function.update_of_ne same] at held
      exact tree.numbered spot inode held

def hardLink (tree : FileTree Path Data) (source target : Path) : FileTree Path Data where
  place := tree.place
  entry := Function.update tree.entry (tree.place target) (tree.entry (tree.place source))
  file := tree.file
  next := tree.next
  numbered spot inode held := by
    by_cases same : spot = tree.place target
    · rw [same, Function.update_self] at held
      exact tree.numbered _ inode held
    · rw [Function.update_of_ne same] at held
      exact tree.numbered spot inode held

def rename (tree : FileTree Path Data) (source target : Path) : FileTree Path Data :=
  if tree.place source = tree.place target then tree
  else (tree.hardLink source target).remove source

variable (tree : FileTree Path Data) (path : Path) (data : Data)

theorem spares_create (free : tree.entry (tree.place path) = none)
    : Spares tree (tree.create path data) where
  entries spot entry held _ := by
    have apart : spot ≠ tree.place path := by
      intro same
      rw [same, free] at held
      cases held
    exact (Function.update_of_ne apart _ _).trans held
  files inode bound := Function.update_of_ne (Nat.ne_of_lt bound) _ _
  next := Nat.le_succ _
  place := rfl

theorem SparesBut.remove (spares : SparesBut lost before after) (path : Path)
    (free : before.entry (before.place path) = none) : SparesBut lost before (after.remove path) where
  entries spot entry held kept := by
    have apart : spot ≠ after.place path := by
      intro same
      rw [same, spares.place, free] at held
      cases held
    exact (Function.update_of_ne apart _ _).trans (spares.entries spot entry held kept)
  files := spares.files
  next := spares.next
  place := spares.place

theorem SparesBut.hardLink (spares : SparesBut lost before after) (source target : Path)
    (given : before.entry (before.place target) = none ∨ lost (before.place target)) :
    SparesBut lost before (after.hardLink source target) where
  entries spot entry held kept := by
    have apart : spot ≠ after.place target := by
      intro same
      rw [same, spares.place] at held kept
      rcases given with free | taken
      · rw [free] at held
        cases held
      · exact kept taken
    exact (Function.update_of_ne apart _ _).trans (spares.entries spot entry held kept)
  files := spares.files
  next := spares.next
  place := spares.place

theorem SparesBut.rename (spares : SparesBut lost before after) (source target : Path)
    (free : before.entry (before.place source) = none) (taken : lost (before.place target)) :
    SparesBut lost before (after.rename source target) := by
  rw [FileTree.rename]
  split
  · exact spares
  · exact (spares.hardLink source target (.inr taken)).remove source free

theorem restored_remove_create (free : tree.entry (tree.place path) = none) :
    Restored tree ((tree.create path data).remove path) where
  entry := by
    funext spot
    simp only [remove, create]
    by_cases same : spot = tree.place path
    · rw [same, Function.update_self, free]
    · rw [Function.update_of_ne same, Function.update_of_ne same]
  place := rfl
  files inode bound := Function.update_of_ne (Nat.ne_of_lt bound) _ _

theorem find_remove_of_entry {tree : FileTree Path Data} {path : Path} {inode : Nat}
    (source : Path) (apart : tree.place source ≠ tree.place path)
    (held : tree.entry (tree.place path) = some (.file inode)) :
    (tree.remove source).find path = some (tree.place path, inode) := by
  refine find_of_entry ?_
  rw [remove]
  simp only [Function.update_of_ne apart.symm, held]

theorem find_rename_create (source target : Path) (data : Data)
    (apart : tree.place source ≠ tree.place target) :
    ((tree.create source data).rename source target).find target =
      some (tree.place target, tree.next) := by
  have moved : (tree.create source data).rename source target =
      ((tree.create source data).hardLink source target).remove source := if_neg apart
  rw [moved]
  refine find_remove_of_entry source apart ?_
  rw [hardLink, create]
  simp only [Function.update_self]

theorem find_link_create (source target : Path) (data : Data) :
    ((tree.create source data).hardLink source target).find target =
      some (tree.place target, tree.next) := by
  refine find_of_entry ?_
  rw [hardLink, create]
  simp only [Function.update_self]

theorem write_create (first second : Data) :
    (tree.create path first).write tree.next second = tree.create path second := by
  rw [write, create, create]
  congr 1
  exact Function.update_idem _ _ _

theorem file_create :
    (tree.create path data).file tree.next = data :=
  Function.update_self _ _ _

end Changes

end FileTree
