import AsmServer.Proofs.Uri.Spelling
import Mathlib.Logic.Relation

/-!
# The lexical form of a path

A path is simplified by its text alone, a segment or two at a time: an empty segment and `.` are
left out, a name and the step up behind it cancel, and a step up at the root stays there. Whatever
is done first, the same names remain in the end. Behind slashes, with a drive letter in front in
lower case, they are the canonical form of the path.

A canonical file URI shows this form and nothing else. So two paths have one URI if and only if
they have one form, and the path by which the file is opened leads back to the URI, although no
slash stands before its drive.
-/

namespace AsmServer

namespace Path

/-! ## Simplifying segments -/

/-- One simplification of the segments of a rooted path. -/
inductive Simplifies : List Text → List Text → Prop
  | idle {before after : List Text} {segment : Text} (vacant : isVacant segment = true) :
      Simplifies (before ++ segment :: after) (before ++ after)
  | back {before after : List Text} {name : Text} (solid : Solid name) :
      Simplifies (before ++ name :: ['.', '.'] :: after) (before ++ after)
  | top {after : List Text} : Simplifies (['.', '.'] :: after) after

/-- Whether nothing can be simplified any more. -/
def Simple (segments : List Text) : Prop := ∀ shorter, ¬Simplifies segments shorter

/-- What the path comes to with slashes for backslashes, when nothing can be simplified any more
and the drive letter is in lower case. -/
def IsCanonicalForm (path form : Text) : Prop :=
  ∃ names, Relation.ReflTransGen Simplifies ((Text.slashed path).splitOn '/') names ∧
    Simple names ∧ form = rooted (names.modifyHead Uri.lowerName)

variable {segments shorter names : List Text} {path form : Text}

/-- A simplification does not change where the segments lead. -/
theorem Simplifies.foldl_enter (h : Simplifies segments shorter) :
    segments.foldl enter [] = shorter.foldl enter [] := by
  cases h with
  | idle vacant => simp [List.foldl_append, enter, vacant]
  | back solid =>
    have up (names : List Text) : enter names ['.', '.'] = names.dropLast := rfl
    simp [List.foldl_append, enter_of_solid solid, up]
  | top => rfl

theorem foldl_enter_of_simplifies (h : Relation.ReflTransGen Simplifies segments shorter) :
    segments.foldl enter [] = shorter.foldl enter [] := by
  induction h with
  | refl => rfl
  | tail _ step ih => exact ih.trans step.foldl_enter

/-- Nothing can be simplified if and only if there are only names. -/
theorem simple_iff : Simple names ↔ ∀ name ∈ names, Solid name := by
  constructor
  · intro simple
    have solid : ∀ name ∈ names, isVacant name = false := by
      intro name member
      obtain ⟨before, after, rfl⟩ := List.append_of_mem member
      exact Bool.eq_false_iff.mpr fun vacant => simple _ (.idle vacant)
    refine fun name member => ⟨solid name member, ?_⟩
    rintro rfl
    -- Before the first step up there is the root or a name.
    obtain ⟨before, after, rfl, first⟩ := List.eq_append_cons_of_mem member
    rcases List.eq_nil_or_concat before with rfl | ⟨front, last, rfl⟩
    · exact simple _ .top
    · have down : last ≠ ['.', '.'] := by
        rintro rfl
        exact first (by simp)
      rw [List.concat_eq_append, List.append_assoc, List.singleton_append] at simple
      exact simple _ (.back ⟨solid last (by simp), down⟩)
  · rintro solid shorter (⟨vacant⟩ | _ | _)
    · exact absurd vacant (Bool.eq_false_iff.mp (solid _ List.mem_append_cons_self).1)
    all_goals exact (solid ['.', '.'] (by simp)).2 rfl

/-- Segments behind names can be simplified to the names to which they lead. -/
theorem simplifies_foldl_enter (solid : ∀ name ∈ names, Solid name) (segments : List Text) :
    Relation.ReflTransGen Simplifies (names ++ segments) (segments.foldl enter names) ∧
      ∀ name ∈ segments.foldl enter names, Solid name := by
  induction segments generalizing names with
  | nil => exact ⟨by rw [List.append_nil]; exact .refl, solid⟩
  | cons segment rest ih =>
    rw [List.foldl_cons]
    by_cases vacant : isVacant segment = true
    · rw [enter, if_pos vacant]
      exact ⟨.head (.idle vacant) (ih solid).1, (ih solid).2⟩
    by_cases up : segment = ['.', '.']
    · have climbed : enter names segment = names.dropLast := by rw [up]; rfl
      obtain ⟨later, kept⟩ := ih fun name member => solid name (List.dropLast_subset _ member)
      rw [climbed]
      refine ⟨.head ?_ later, kept⟩
      rw [up]
      rcases List.eq_nil_or_concat names with rfl | ⟨before, last, rfl⟩
      · exact .top
      · have cancel : Simplifies (before ++ last :: ['.', '.'] :: rest) (before ++ rest) :=
          .back (solid last (by simp))
        simpa using cancel
    · have here : Solid segment := ⟨Bool.eq_false_iff.mpr vacant, up⟩
      rw [enter_of_solid here]
      have longer : ∀ name ∈ names ++ [segment], Solid name :=
        List.forall_mem_append.mpr ⟨solid, List.forall_mem_singleton.mpr here⟩
      simpa using ih longer

/-- Every path has one canonical form. -/
theorem isCanonicalForm_iff : IsCanonicalForm path form ↔ form = Uri.canonicalPath path := by
  have root : ∀ name ∈ ([] : List Text), Solid name := by simp
  obtain ⟨steps, solid⟩ := simplifies_foldl_enter root ((Text.slashed path).splitOn '/')
  rw [Uri.canonicalPath_eq_rooted, Uri.ownPlace, place]
  constructor
  · rintro ⟨names, reduced, simple, rfl⟩
    rw [foldl_enter_of_simplifies reduced, foldl_enter_of_solid (simple_iff.mp simple),
      List.nil_append]
  · rintro rfl
    exact ⟨_, steps, simple_iff.mpr solid, rfl⟩

end Path

namespace Uri

open AsmServer.Path

/-! ## Keys of files -/

/-- Whether the URI is the key of a file: the URI of a path, or a file URI taken from any text. -/
def IsKey (uri : Uri) : Prop :=
  (∃ path, uri = ofPath path) ∨ ∃ raw, uri = ofText raw ∧ uri.isFile = true

/-- Escaping brings no text without a percent sign to the front. -/
theorem prefix_of_prefix_encode {lead text : Text} (unescaped : '%' ∉ lead)
    (h : lead <+: Percent.encode text) : lead <+: text := by
  induction lead generalizing text with
  | nil => exact List.nil_prefix
  | cons mark rest ih =>
    obtain ⟨here, later⟩ := List.ne_and_not_mem_of_not_mem_cons unescaped
    cases text with
    | nil => simp [Percent.encode] at h
    | cons c text =>
      rw [Percent.encode, List.flatMap_cons, Percent.encodeChar] at h
      split at h
      · obtain ⟨rfl, within⟩ := List.cons_prefix_cons.mp h
        exact List.cons_prefix_cons.mpr ⟨rfl, ih later within⟩
      · obtain ⟨b, bytes, spelled⟩ : ∃ b bytes, String.utf8EncodeChar c = b :: bytes :=
          List.exists_cons_of_length_pos (by simp [Char.utf8Size_pos])
        rw [Percent.escapeChar, spelled, List.flatMap_cons, Percent.escape] at h
        exact absurd (List.cons_prefix_cons.mp h).1.symm here

/-- A file URI that is taken from a text is the URI of a path. -/
theorem IsKey.exists_path {uri : Uri} (h : uri.IsKey) : ∃ path, uri = ofPath path := by
  rcases h with known | ⟨raw, rfl, file⟩
  · exact known
  · cases read : filePath? (Percent.decode raw) with
    | some path => exact ⟨path, by simp only [ofText, read]⟩
    | none =>
      have kept : ofText raw = ⟨Percent.encode (Percent.decode raw)⟩ := by simp only [ofText, read]
      rw [kept] at file
      obtain ⟨rest, whole⟩ :=
        prefix_of_prefix_encode (by decide) (List.isPrefixOf_iff_prefix.mp file)
      rw [← whole, filePath?, Text.afterLead?_append] at read
      cases read

/-- The path by which a canonical file is opened has the canonical form of the URI. -/
theorem ofPath_of_platformPath {path opened : Text}
    (h : (ofPath path).platformPath = .ok opened) : ofPath opened = ofPath path := by
  have back : ownPlace opened = ownPlace path := by
    rw [platformPath_ofPath] at h
    rw [← Except.ok.inj h, ownPlace]
    split_ifs
    · rw [slashed_join isName_ownPlace, place_join isName_ownPlace, modifyHead_ownPlace]
    · rw [slashed_rooted isName_ownPlace, place_rooted isName_ownPlace, modifyHead_ownPlace]
  rw [ofPath, canonicalPath_eq_rooted, back, ← canonicalPath_eq_rooted, ofPath]

/-! ## The law -/

/-- The path of a canonical URI is the canonical form of the path that it was made from; every key
of a file is the URI of the path by which the file is opened; and paths have one URI if and only
if they have one canonical form. -/
theorem keys_stand_for_forms :
    (∀ path, ∃ form, (ofPath path).decodedPath = .ok form ∧
      ∀ other, IsCanonicalForm path other ↔ other = form) ∧
    (∀ uri, IsKey uri → ∃ opened, uri.platformPath = .ok opened ∧ ofPath opened = uri) ∧
    ∀ path other, ofPath path = ofPath other ↔
      ∃ form, IsCanonicalForm path form ∧ IsCanonicalForm other form := by
  refine ⟨fun path => ⟨_, decodedPath_ofPath path, fun _ => isCanonicalForm_iff⟩, ?_, ?_⟩
  · intro uri key
    obtain ⟨path, rfl⟩ := key.exists_path
    exact ⟨_, platformPath_ofPath path, ofPath_of_platformPath (platformPath_ofPath path)⟩
  · intro path other
    simp only [isCanonicalForm_iff]
    constructor
    · intro same
      have read := decodedPath_ofPath other
      rw [← same, decodedPath_ofPath] at read
      exact ⟨_, rfl, Except.ok.inj read⟩
    · rintro ⟨form, here, there⟩
      rw [ofPath, ← here, there, ofPath]

/-- A capital drive letter, an escape and a detour: the file is opened by a path without a slash
in front, and that path leads back to the key. -/
theorem escaped_drive_leads_back :
    IsKey (ofText "file:///%44:/x/../a%20b".toList) ∧
      ∃ opened, (ofText "file:///%44:/x/../a%20b".toList).platformPath = .ok opened ∧
        opened = "d:/a b".toList ∧ ofPath opened = ofText "file:///%44:/x/../a%20b".toList := by
  have key : IsKey (ofText "file:///%44:/x/../a%20b".toList) := .inr ⟨_, rfl, by decide⟩
  obtain ⟨opened, read, back⟩ := keys_stand_for_forms.2.1 _ key
  have spelled : (ofText "file:///%44:/x/../a%20b".toList).platformPath = .ok "d:/a b".toList := by
    decide
  exact ⟨key, opened, read, Except.ok.inj (read.symm.trans spelled), back⟩

end Uri

end AsmServer
