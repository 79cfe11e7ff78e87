import KnotEditor.Desktop.DocumentLinkRoundTrip

/-! Where the links that can be followed and the edges of the catalog graph agree, for a file of the
catalog and a target without white space around it. -/

namespace KnotEditor.Desktop

open RelativeWalk
open FilePath (absolute relative)
open DocumentLinks (Portable decodeComponent)

variable {codec : PercentCodec}

/-- What following a link asks of its target: no sign of another kind of URL, and components that
are whole names once decoded. -/
def Followable (codec : PercentCodec) (raw : List Char) : Prop :=
  DocumentLinks.refusesTarget raw = false ∧
    ∀ component ∈ raw.splitOn '/', (decodeComponent codec component).isSome = true

def linkSteps (codec : PercentCodec) (raw : List Char) : List (Step ByteArray) :=
  (raw.splitOn '/').filterMap fun component => (decodeComponent codec component).bind textStep

theorem linkSteps_eq {raw : List Char} {texts : List String}
    (decoded : (raw.splitOn '/').mapM (decodeComponent codec) = some texts) :
    linkSteps codec raw = texts.filterMap textStep := by
  have every : ∀ components texts, List.mapM (decodeComponent codec) components = some texts →
      (components.filterMap fun component => (decodeComponent codec component).bind textStep) =
        texts.filterMap textStep := by
    intro components
    induction components with
    | nil =>
      intro texts decoded
      cases decoded
      rfl
    | cons first rest ih =>
      intro texts decoded
      rcases Fallible.mapM_cons_eq_some_iff.mp decoded with ⟨head, tail, began, others, rfl⟩
      rw [List.filterMap_cons, List.filterMap_cons, began, Option.bind_some, ih tail others]
  exact every _ texts decoded

theorem followable_iff {raw : List Char} :
    Followable codec raw ↔ DocumentLinks.refusesTarget raw = false ∧
      ∃ texts, (raw.splitOn '/').mapM (decodeComponent codec) = some texts := by
  refine and_congr_right fun _ => ⟨?_, ?_⟩
  · intro each
    have decoded : ∀ component ∈ raw.splitOn '/', ∃ text,
        decodeComponent codec component = some text ∧ True := by
      intro component member
      rcases Option.isSome_iff_exists.mp (each component member) with ⟨text, same⟩
      exact ⟨text, same, trivial⟩
    rcases Fallible.mapM_eq_some_of_forall decoded with ⟨texts, mapped, -⟩
    exact ⟨texts, mapped⟩
  · rintro ⟨texts, mapped⟩ component member
    rcases Fallible.exists_of_mapM_eq_some mapped component member with ⟨text, -, same⟩
    rw [same]
    rfl

theorem absolute_join (root names : List ByteArray) :
    (absolute root).join (relative names) = absolute (root ++ names) := by
  rw [DocumentLinks.join_relative, absolute, absolute, List.map_append]
  rfl

theorem follow_eq_some_iff {root source page : List ByteArray} {target : String}
    (file : source ≠ []) :
    DocumentLinks.resolveLocal codec ((absolute root).join (relative source)) target =
        some ((absolute root).join (relative page)) ↔
      (∀ name ∈ root ++ source, Portable name) ∧ Followable codec (beforeFragment target) ∧
        walk (root ++ source.dropLast) (linkSteps codec (beforeFragment target)) =
          some (root ++ page) := by
  have placed : .rootDir ∉ (absolute (root ++ source)).tail :=
    rootDir_notMem_relative (root ++ source)
  rw [absolute_join, absolute_join, DocumentLinks.resolveLocal_eq_some_iff placed, followable_iff]
  constructor
  · rintro ⟨names, texts, there, accepted, -, kept, decoded, arrives, same⟩
    rcases DocumentLinks.normalizedPath_eq_ok placed accepted with ⟨others, walked, reached, fine⟩
    cases DocumentLinks.absolute_inj reached
    cases DocumentLinks.absolute_inj same
    have whole : (absolute (root ++ source)).filterMap DocumentLinks.componentStep =
        (root ++ source).map .down := steps_relative (root ++ source)
    rw [whole, walk_down] at walked
    cases walked
    rw [List.nil_append, List.dropLast_append_of_ne_nil file] at arrives
    exact ⟨fun name member => (fine name member).1, ⟨kept, texts, decoded⟩,
      linkSteps_eq decoded ▸ arrives⟩
  · rintro ⟨portable, ⟨kept, texts, decoded⟩, arrives⟩
    refine ⟨root ++ source, texts, root ++ page, DocumentLinks.normalizedPath_absolute portable,
      by simp [file], kept, decoded, ?_, rfl⟩
    rw [List.dropLast_append_of_ne_nil file, ← linkSteps_eq decoded]
    exact arrives

theorem edge_eq_some_iff (documented : codec.Documented) {source page : List ByteArray}
    {target : String}
    (tidy : trim (String.ofList (beforeFragment target)) = String.ofList (beforeFragment target))
    (followable : Followable codec (beforeFragment target)) :
    CatalogLinks.resolveLocal codec (relative source) target = some (relative page) ↔
      CatalogLinks.refusesTarget (String.ofList (beforeFragment target)) = false ∧
        walk source.dropLast (linkSteps codec (beforeFragment target)) = some page := by
  rcases followable_iff.mp followable with ⟨kept, texts, decoded⟩
  have unrooted : (beforeFragment target).head? ≠ some '/' := by
    intro rooted
    simp [DocumentLinks.refusesTarget, rooted] at kept
  cases admitted : CatalogLinks.refusesTarget (String.ofList (beforeFragment target)) with
  | true =>
    unfold CatalogLinks.resolveLocal
    simp [tidy, admitted]
  | false =>
    rw [CatalogLinks.resolveLocal_eq_walk documented tidy admitted unrooted decoded,
      linkSteps_eq decoded]
    constructor
    · intro drawn
      rcases Option.map_eq_some_iff.mp drawn with ⟨there, arrives, same⟩
      cases relative_inj same
      exact ⟨rfl, arrives⟩
    · rintro ⟨-, arrives⟩
      rw [arrives]
      rfl

theorem headD_splitOn (raw : List Char) :
    (raw.splitOn '/').headD [] = raw.takeWhile fun character => character ≠ '/' := by
  induction raw with
  | nil => rfl
  | cons first rest ih =>
    rw [List.splitOn_cons_eq_if_modifyHead]
    by_cases slash : first = '/'
    · simp [slash]
    · cases pieces : rest.splitOn '/' with
      | nil => exact absurd pieces (List.splitOn_ne_nil '/' rest)
      | cons head others =>
        rw [pieces, List.headD_cons] at ih
        simp [slash, ih]

theorem refusesTarget_of_kept {raw : List Char} (kept : DocumentLinks.refusesTarget raw = false) :
    CatalogLinks.refusesTarget (String.ofList raw) = false ↔ ¬ [':', '/', '/'] <:+: raw := by
  simp only [DocumentLinks.refusesTarget, Bool.or_eq_false_iff] at kept
  rcases kept with ⟨⟨⟨⟨nonempty, -⟩, -⟩, -⟩, colon⟩
  have noMail : ¬ "mailto:".toList <+: raw := by
    rintro ⟨rest, rfl⟩
    rw [headD_splitOn] at colon
    simp at colon
  rw [CatalogLinks.refusesTarget, String.toList_ofList, decide_eq_false noMail]
  simpa using fun _ => nonempty

def coveRoot : List ByteArray := ["cove".toUTF8]
def coveNote : List ByteArray := ["a.djot".toUTF8]

/-- An escaped separator is an edge that cannot be followed, and so is white space before a name; a
way out of the catalog and back in is followed without being an edge. -/
theorem edges_and_followable_links_disagree :
    (CatalogLinks.resolveLocal DocumentLinks.plainCodec (relative coveNote) "log%2Fb.djot" =
        some (relative ["log".toUTF8, "b.djot".toUTF8]) ∧
      DocumentLinks.resolveLocal DocumentLinks.plainCodec
        ((absolute coveRoot).join (relative coveNote)) "log%2Fb.djot" = none) ∧
    (CatalogLinks.resolveLocal DocumentLinks.plainCodec (relative coveNote) " b.djot" =
        some (relative ["b.djot".toUTF8]) ∧
      DocumentLinks.resolveLocal DocumentLinks.plainCodec
        ((absolute coveRoot).join (relative coveNote)) " b.djot" ≠
          some ((absolute coveRoot).join (relative ["b.djot".toUTF8]))) ∧
    (DocumentLinks.resolveLocal DocumentLinks.plainCodec
        ((absolute coveRoot).join (relative coveNote)) "../cove/b.djot" =
          some ((absolute coveRoot).join (relative ["b.djot".toUTF8])) ∧
      CatalogLinks.resolveLocal DocumentLinks.plainCodec (relative coveNote) "../cove/b.djot" =
        none) := by
  decide +kernel

/-- Targets with no white space around them: an edge can be followed when every name on the way is
portable and the target is one that following admits; a followed link is an edge when it holds no
`://` and its way stays inside the catalog. -/
theorem edges_and_followable_links_agree (documented : codec.Documented)
    {root source page : List ByteArray} (target : String) (file : source ≠ [])
    (tidy : trim (String.ofList (beforeFragment target)) = String.ofList (beforeFragment target)) :
    (CatalogLinks.resolveLocal codec (relative source) target = some (relative page) →
      (DocumentLinks.resolveLocal codec ((absolute root).join (relative source)) target =
          some ((absolute root).join (relative page)) ↔
        (∀ name ∈ root ++ source, Portable name) ∧ Followable codec (beforeFragment target))) ∧
    (DocumentLinks.resolveLocal codec ((absolute root).join (relative source)) target =
        some ((absolute root).join (relative page)) →
      (CatalogLinks.resolveLocal codec (relative source) target = some (relative page) ↔
        ¬ [':', '/', '/'] <:+: beforeFragment target ∧
          staysInside (source.length - 1) (linkSteps codec (beforeFragment target)) = true)) := by
  rw [follow_eq_some_iff file]
  constructor
  · intro drawn
    constructor
    · rintro ⟨portable, followable, -⟩
      exact ⟨portable, followable⟩
    · rintro ⟨portable, followable⟩
      have edge := (edge_eq_some_iff documented tidy followable).mp drawn
      exact ⟨portable, followable, walk_below root edge.2⟩
  · rintro ⟨portable, followable, arrives⟩
    rw [edge_eq_some_iff documented tidy followable, refusesTarget_of_kept followable.1,
      ← List.length_dropLast]
    refine and_congr_right fun _ => ⟨?_, fun inside => walk_of_below inside arrives⟩
    intro edge
    rw [← isSome_walk, edge]
    rfl

theorem edges_and_followable_links_agree_cove :
    CatalogLinks.resolveLocal DocumentLinks.plainCodec (relative coveNote) "./b.djot" =
        some (relative ["b.djot".toUTF8]) ∧
      (DocumentLinks.resolveLocal DocumentLinks.plainCodec
          ((absolute coveRoot).join (relative coveNote)) "./b.djot" =
            some ((absolute coveRoot).join (relative ["b.djot".toUTF8])) ↔
        (∀ name ∈ coveRoot ++ coveNote, Portable name) ∧
          Followable DocumentLinks.plainCodec (beforeFragment "./b.djot")) :=
  ⟨by decide +kernel,
    (edges_and_followable_links_agree DocumentLinks.plainCodec_documented "./b.djot" (by decide)
      (by decide +kernel)).1 (by decide +kernel)⟩

end KnotEditor.Desktop
