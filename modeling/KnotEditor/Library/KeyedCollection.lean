import Mathlib.Algebra.BigOperators.Group.List.Basic
import Mathlib.Algebra.GroupWithZero.Nat
import Mathlib.Data.List.Induction
import Mathlib.Data.List.Nodup
import Std.Data.DTreeMap.Internal.Lemmas
import Std.Data.ExtTreeMap

/-! Replays that insert each item of a list under a key of its own. -/

namespace KeyedCollections

variable {κ α β : Type} [Ord κ] [Std.TransOrd κ]

def collect (key : α → κ) (value : α → Option β) (items : List α) : Std.ExtTreeMap κ β :=
  items.foldl (fun table item =>
    match value item with
    | some found => table.insert (key item) found
    | none => table) ∅

variable (table : Std.ExtTreeMap κ β)

theorem values_eq_map_toList :
    table.values = table.toList.map Prod.snd := by
  obtain ⟨⟨entries⟩⟩ := table
  induction entries using Quotient.inductionOn with
  | _ entries =>
    change Std.DTreeMap.Internal.Impl.values entries.inner =
      (Std.DTreeMap.Internal.Impl.Const.toList entries.inner).map Prod.snd
    rw [Std.DTreeMap.Internal.Impl.values_eq_map_snd,
      Std.DTreeMap.Internal.Impl.Const.toList_eq_toListModel_map]
    simp [Function.comp_def]

theorem nodup_toList : table.toList.Nodup := by
  have keys : (table.toList.map Prod.fst).Nodup := by
    rw [Std.ExtTreeMap.map_fst_toList_eq_keys]
    exact Std.ExtTreeMap.nodup_keys
  exact keys.of_map

variable {key : α → κ} {value : α → Option β} {items others : List α}

theorem collect_append_singleton (items : List α) (item : α) :
    collect key value (items ++ [item]) =
      match value item with
      | some found => (collect key value items).insert (key item) found
      | none => collect key value items := by
  simp only [collect, List.foldl_append, List.foldl_cons, List.foldl_nil]

variable [Std.LawfulEqOrd κ]

theorem mem_values_iff (found : β) :
    found ∈ table.values ↔ ∃ query : κ, table[query]? = some found := by
  rw [values_eq_map_toList, List.mem_map]
  constructor
  · rintro ⟨⟨query, _⟩, member, rfl⟩
    exact ⟨query, Std.ExtTreeMap.mem_toList_iff_getElem?_eq_some.mp member⟩
  · rintro ⟨query, read⟩
    exact ⟨(query, found), Std.ExtTreeMap.mem_toList_iff_getElem?_eq_some.mpr read, rfl⟩

theorem values_eq_singleton_iff (found : β) :
    table.values = [found] ↔ ∃ key : κ, table[key]? = some found ∧
      ∀ (other : κ) (value : β), table[other]? = some value → other = key := by
  rw [values_eq_map_toList, List.map_eq_singleton_iff]
  simp only [← Std.ExtTreeMap.mem_toList_iff_getElem?_eq_some]
  constructor
  · rintro ⟨⟨key, value⟩, listed, rfl⟩
    refine ⟨key, by simp [listed], fun other value member => ?_⟩
    rw [listed, List.mem_singleton, Prod.mk.injEq] at member
    exact member.1
  · rintro ⟨key, member, only⟩
    refine ⟨(key, found), ?_, rfl⟩
    have distinct := table.distinct_keys_toList
    cases listed : table.toList with
    | nil => simp [listed] at member
    | cons first rest =>
      rw [listed] at member only distinct
      have firstKey := only first.1 first.2 List.mem_cons_self
      cases rest with
      | nil => rw [List.mem_singleton.mp member]
      | cons second others =>
        have secondKey := only second.1 second.2 (by simp)
        rw [List.pairwise_cons] at distinct
        refine absurd ?_ (distinct.1 second List.mem_cons_self)
        rw [firstKey, secondKey]
        exact Std.LawfulEqOrd.compare_eq_iff_eq.mpr rfl

theorem getElem?_insert_of_ne {inserted query : κ} (distinct : inserted ≠ query) (found : β) :
    (table.insert inserted found)[query]? = table[query]? := by
  rw [Std.ExtTreeMap.getElem?_insert,
    if_neg fun same => distinct (Std.LawfulEqOrd.compare_eq_iff_eq.mp same)]

theorem mem_of_getElem?_collect {query : κ} {found : β}
    (read : (collect key value items)[query]? = some found) :
    ∃ item ∈ items, key item = query ∧ value item = some found := by
  induction items using List.reverseRecOn with
  | nil => simp [collect] at read
  | append_singleton front last ih =>
    rw [collect_append_singleton] at read
    cases produced : value last with
    | none =>
      rw [produced] at read
      obtain ⟨item, member, same, value⟩ := ih read
      exact ⟨item, by simp [member], same, value⟩
    | some inserted =>
      rw [produced] at read
      by_cases same : key last = query
      · subst same
        rw [Std.ExtTreeMap.getElem?_insert_self] at read
        exact ⟨last, by simp, rfl, by rw [produced, read]⟩
      · rw [getElem?_insert_of_ne _ same] at read
        obtain ⟨item, member, same, value⟩ := ih read
        exact ⟨item, by simp [member], same, value⟩

theorem getElem?_collect (distinct : (items.map key).Nodup) (query : κ) (found : β) :
    (collect key value items)[query]? = some found ↔
      ∃ item ∈ items, key item = query ∧ value item = some found := by
  refine ⟨mem_of_getElem?_collect, ?_⟩
  induction items using List.reverseRecOn with
  | nil => simp
  | append_singleton front last ih =>
    rintro ⟨item, member, same, produced⟩
    rw [List.map_append, List.nodup_append] at distinct
    rw [collect_append_singleton]
    rcases List.mem_append.mp member with inFront | isLast
    · have earlier := ih distinct.1 ⟨item, inFront, same, produced⟩
      have other : key last ≠ query := by
        intro clash
        exact distinct.2.2 (key item) (List.mem_map_of_mem inFront) (key last) (by simp)
          (by rw [same, clash])
      cases value last with
      | none => exact earlier
      | some _ => exact (getElem?_insert_of_ne _ other _).trans earlier
    · rw [List.mem_singleton] at isLast
      subst isLast
      subst same
      rw [produced]
      exact Std.ExtTreeMap.getElem?_insert_self

theorem getElem?_collect_prefix {front back : List α}
    (distinct : ((front ++ back).map key).Nodup) {query : κ}
    (held : ∀ item ∈ front ++ back, key item = query → item ∈ front) :
    (collect key value front)[query]? = (collect key value (front ++ back))[query]? := by
  have part : (front.map key).Nodup :=
    distinct.sublist ((List.sublist_append_left front back).map key)
  refine Option.ext fun found => ?_
  rw [getElem?_collect part, getElem?_collect distinct]
  constructor
  · rintro ⟨item, member, same, produced⟩
    exact ⟨item, List.mem_append_left back member, same, produced⟩
  · rintro ⟨item, member, same, produced⟩
    exact ⟨item, held item member same, same, produced⟩

theorem getElem?_collect_middle {front back : List α} {item : α}
    (distinct : ((front ++ item :: back).map key).Nodup) {query : κ}
    (other : key item = query → value item = none) :
    (collect key value (front ++ item :: back))[query]? =
      (collect key value (front ++ back))[query]? := by
  have part : ((front ++ back).map key).Nodup :=
    distinct.sublist (((List.sublist_cons_self item back).append_left front).map key)
  refine Option.ext fun found => ?_
  rw [getElem?_collect distinct, getElem?_collect part]
  constructor
  · rintro ⟨holder, member, same, produced⟩
    refine ⟨holder, ?_, same, produced⟩
    rw [List.mem_append, List.mem_cons] at member
    rcases member with early | rfl | late
    · exact List.mem_append_left back early
    · rw [other same] at produced
      cases produced
    · exact List.mem_append_right front late
  · rintro ⟨holder, member, same, produced⟩
    refine ⟨holder, ?_, same, produced⟩
    rw [List.mem_append] at member ⊢
    exact member.imp_right (List.mem_cons_of_mem item)

theorem collect_perm (same : items.Perm others) (distinct : (items.map key).Nodup) :
    collect key value items = collect key value others := by
  refine Std.ExtTreeMap.ext_getElem? fun query => Option.ext fun found => ?_
  rw [getElem?_collect distinct,
    getElem?_collect ((same.map key).nodup_iff.mp distinct)]
  simp only [same.mem_iff]

theorem getElem?_erase_of_ne {erased query : κ} (distinct : erased ≠ query)
    : (table.erase erased)[query]? = table[query]? := by
  rw [Std.ExtTreeMap.getElem?_erase,
    if_neg fun same => distinct (Std.LawfulEqOrd.compare_eq_iff_eq.mp same)]

theorem getElem?_insert_eq_some_iff [DecidableEq κ] (table : Std.ExtTreeMap κ β)
    {inserted query : κ} {value found : β} :
    (table.insert inserted value)[query]? = some found ↔
      query = inserted ∧ found = value ∨ query ≠ inserted ∧ table[query]? = some found := by
  by_cases same : inserted = query
  · subst same
    simp [eq_comm]
  · rw [getElem?_insert_of_ne table same]
    simp [Ne.symm same]

theorem getElem?_insert_fresh [DecidableEq κ] (table : Std.ExtTreeMap κ β) {inserted query : κ}
    {value found : β} (fresh : table[inserted]? = none) :
    (table.insert inserted value)[query]? = some found ↔
      query = inserted ∧ found = value ∨ table[query]? = some found := by
  rw [getElem?_insert_eq_some_iff]
  refine or_congr_right (and_iff_right_of_imp ?_)
  rintro held rfl
  rw [fresh] at held
  cases held

theorem getElem?_erase_eq_some_iff [DecidableEq κ] (table : Std.ExtTreeMap κ β) {erased query : κ}
    {found : β} : (table.erase erased)[query]? = some found ↔
      query ≠ erased ∧ table[query]? = some found := by
  by_cases same : erased = query
  · subst same
    simp
  · rw [getElem?_erase_of_ne table same]
    simp [Ne.symm same]

theorem getElem?_modify_of_ne {modified query : κ} (distinct : modified ≠ query) (change : β → β) :
    (table.modify modified change)[query]? = table[query]? := by
  rw [Std.ExtTreeMap.getElem?_modify,
    if_neg fun same => distinct (Std.LawfulEqOrd.compare_eq_iff_eq.mp same)]

theorem held_of_modify [DecidableEq κ] (table : Std.ExtTreeMap κ β) (modified : κ)
    (change : β → β) {query : κ} {found : β}
    (held : (table.modify modified change)[query]? = some found) :
    ∃ was, table[query]? = some was ∧ found = if modified = query then change was else was := by
  by_cases same : modified = query
  · subst same
    rw [Std.ExtTreeMap.getElem?_modify_self, Option.map_eq_some_iff] at held
    rcases held with ⟨was, before, changed⟩
    exact ⟨was, before, by rw [if_pos rfl, changed]⟩
  · rw [getElem?_modify_of_ne _ same] at held
    exact ⟨found, held, by rw [if_neg same]⟩

theorem values_insert_perm (key : κ) (value : β) (fresh : table[key]? = none)
    : (table.insert key value).values.Perm (value :: table.values) := by
  rw [values_eq_map_toList, values_eq_map_toList]
  have entries : (table.insert key value).toList.Perm ((key, value) :: table.toList) := by
    have unlisted : (key, value) ∉ table.toList := by
      rw [Std.ExtTreeMap.mem_toList_iff_getElem?_eq_some, fresh]
      simp
    rw [List.perm_ext_iff_of_nodup (nodup_toList _)
      (List.nodup_cons.mpr ⟨unlisted, nodup_toList table⟩)]
    rintro ⟨query, found⟩
    rw [List.mem_cons, Std.ExtTreeMap.mem_toList_iff_getElem?_eq_some,
      Std.ExtTreeMap.mem_toList_iff_getElem?_eq_some, Prod.mk.injEq]
    by_cases same : key = query
    · subst same
      rw [Std.ExtTreeMap.getElem?_insert_self, fresh]
      simp [eq_comm]
    · rw [getElem?_insert_of_ne _ same]
      simp [Ne.symm same]
  exact entries.map Prod.snd

theorem erase_insert (key : κ) (value : β) :
    (table.erase key).insert key value = table.insert key value := by
  apply Std.ExtTreeMap.ext_getElem?
  intro query
  by_cases same : key = query
  · subst same
    rw [Std.ExtTreeMap.getElem?_insert_self, Std.ExtTreeMap.getElem?_insert_self]
  · rw [getElem?_insert_of_ne _ same, getElem?_insert_of_ne _ same, getElem?_erase_of_ne _ same]

theorem insert_held (key : κ) (value : β) (held : table[key]? = some value)
    : table.insert key value = table := by
  apply Std.ExtTreeMap.ext_getElem?
  intro query
  by_cases same : key = query
  · subst same
    rw [Std.ExtTreeMap.getElem?_insert_self, held]
  · rw [getElem?_insert_of_ne _ same]

theorem sum_values_insert (key : κ) (value : β) (size : β → Nat) :
    ((table.insert key value).values.map size).sum =
      ((table.erase key).values.map size).sum + size value := by
  have perm := (values_insert_perm (table.erase key) key value
    Std.ExtTreeMap.getElem?_erase_self).map size
  rw [← erase_insert, perm.sum_eq, List.map_cons, List.sum_cons, Nat.add_comm]

theorem sum_values_erase (key : κ) (size : β → Nat) :
    ((table.erase key).values.map size).sum + (table[key]?).elim 0 size =
      (table.values.map size).sum := by
  cases held : table[key]? with
  | none =>
    have same : table.erase key = table := by
      apply Std.ExtTreeMap.ext_getElem?
      intro query
      by_cases same : key = query
      · subst same
        rw [Std.ExtTreeMap.getElem?_erase_self, held]
      · rw [getElem?_erase_of_ne _ same]
    rw [same]
    exact Nat.add_zero _
  | some value =>
    rw [Option.elim_some, ← sum_values_insert, insert_held table key value held]

end KeyedCollections
