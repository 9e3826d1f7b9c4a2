import AsmServer.Proofs.Path.Descent
import AsmServer.Proofs.Text.Search
import AsmServer.Workspace.Update

/-!
# Files named from other files

A relative name leads from the directory of a file to another file. The same name leads
from any other directory too, if only by its text, and the outcome is a descent: some steps
up, then names down. If the names of the one place end with the names of the other, they
still do after both have followed the same name. So a file whose name was put together from
the names on the way to it has a path that ends with the names of that descent.
-/

namespace AsmServer

namespace Uri

open AsmServer.Path

/-- The directory of a canonical file has the names of the file but the last. -/
theorem place_baseDir (path : Text) :
    place (Text.slashed (Registry.baseDir (ofPath path))) = (ownPlace path).dropLast := by
  have proper : ∀ name ∈ (ownPlace path).dropLast, IsName name := fun name member =>
    isName_ownPlace name ((List.dropLast_sublist _).subset member)
  unfold Registry.baseDir parentDir
  rw [platformPath_ofPath]
  split_ifs with drive
  · have names := ne_nil_of_hasDrive drive
    have parts (name : Text) (member : name ∈ ownPlace path) : IsPart name :=
      (isName_ownPlace name member).isPart
    change place (Text.slashed ((parent? (Text.join ['/'] (ownPlace path))).getD ['/'])) = _
    rw [parent?_join parts names, Option.getD_some, slashed_join proper, place_join proper]
  · change place (Text.slashed ((parent? (rooted (ownPlace path))).getD ['/'])) = _
    by_cases empty : ownPlace path = []
    · rw [empty]
      decide
    · rw [parent?_rooted isName_ownPlace empty, Option.getD_some, slashed_rooted proper,
        place_rooted proper]

/-- The file that a name means in the directory of another file. -/
def beside (uri : Uri) (name : Text) : Uri :=
  ofPath (append (append (Registry.baseDir uri) ['.']) name)

/-! ## Drive letters -/

theorem lowerName_lowerName (name : Text) : lowerName (lowerName name) = lowerName name := by
  have again (c : Char) : Text.lowerChar (Text.lowerChar c) = Text.lowerChar c := by
    have low : ∀ n < 91, 65 ≤ n → Text.lowerChar (Char.ofNat (n + 32)) = Char.ofNat (n + 32) := by
      decide
    by_cases upper : 'A' ≤ c ∧ c ≤ 'Z'
    · have shifted : Text.lowerChar c = Char.ofNat (c.toNat + 32) := if_pos upper
      rw [shifted, low c.toNat (Nat.lt_succ_of_le upper.2) upper.1]
    · have same : Text.lowerChar c = c := if_neg upper
      rw [same, same]
  rcases name with _ | ⟨letter, _ | ⟨mark, rest⟩⟩
  · rfl
  · rfl
  · by_cases colon : mark = ':'
    · subst colon
      by_cases alpha : letter.isAlpha <;> simp [lowerName, alpha, again]
    · simp [lowerName, colon]

/-- Without a drive in front nothing is lower-cased. -/
theorem modifyHead_lowerName {names : List Text} (proper : ∀ name ∈ names, IsName name)
    (undriven : hasDrive (rooted names) = false) : names.modifyHead lowerName = names := by
  cases names with
  | nil => rfl
  | cons first rest =>
    obtain ⟨letter, text, rfl⟩ :=
      List.exists_cons_of_ne_nil (proper first List.mem_cons_self).ne_nil
    rw [rooted_of_ne_nil (List.cons_ne_nil _ _)] at undriven
    rcases text with _ | ⟨mark, text⟩
    · rfl
    · by_cases colon : mark = ':'
      · subst colon
        have : letter.isAlpha = false := by simpa [hasDrive] using undriven
        simp [lowerName, this]
      · simp [lowerName, colon]

/-- The names differ at most in the case of a drive letter in front. -/
def SameDrive (a b : List Text) : Prop := a.modifyHead lowerName = b.modifyHead lowerName

namespace SameDrive

variable {a b : List Text}

theorem lower : SameDrive (a.modifyHead lowerName) a := by
  rw [SameDrive, List.modifyHead_modifyHead]
  congr 1
  exact funext lowerName_lowerName

theorem dropLast (h : SameDrive a b) : SameDrive a.dropLast b.dropLast := by
  rw [SameDrive, List.modifyHead_dropLast, List.modifyHead_dropLast, h]

theorem concat (h : SameDrive a b) (name : Text) : SameDrive (a ++ [name]) (b ++ [name]) := by
  cases a <;> cases b <;> simp_all [SameDrive]

theorem foldl_enter (h : SameDrive a b) (segments : List Text) :
    SameDrive (segments.foldl enter a) (segments.foldl enter b) := by
  induction segments generalizing a b with
  | nil => exact h
  | cons segment rest ih =>
    refine ih ?_
    unfold enter
    split_ifs
    · exact h
    · exact h.dropLast
    · exact h.concat segment

end SameDrive

/-! ## Paths that end with a name -/

theorem dropHere_join {names : List Text} (proper : ∀ name ∈ names, IsName name) :
    dropHere (Text.join ['/'] names) = Text.join ['/'] names := by
  unfold dropHere
  split
  · next rest spelled =>
    have pieces : (Text.join ['/'] names).splitOn '/' = ['.'] :: rest.splitOn '/' := by
      rw [spelled]
      exact List.splitOn_append_cons_self ['.'] rest
    by_cases empty : names = []
    · subst empty
      exact absurd spelled (by simp [Text.join])
    · rw [splitOn_join proper empty] at pieces
      exact absurd rfl (proper ['.'] (pieces ▸ List.mem_cons_self)).ne_here
  · rfl

/-- A path ends with the last of its names. -/
theorem endsWithPath_of_suffix {uri : Uri} {names last : List Text}
    (read : uri.decodedPath = .ok (rooted names)) (proper : ∀ name ∈ last, IsName name)
    (given : last ≠ []) (suffix : last <:+ names) :
    uri.endsWithPath (Text.join ['/'] last) = true := by
  obtain ⟨before, rfl⟩ := suffix
  have whole : rooted (before ++ last)
      = (before.flatMap ('/' :: ·) ++ ['/']) ++ Text.join ['/'] last := by
    rw [rooted_of_ne_nil (by simp [given]), List.flatMap_append, ← rooted_of_ne_nil given,
      rooted_eq_cons_join last]
    simp
  have nonempty : Text.join ['/'] last ≠ [] := by
    intro empty
    have pieces := splitOn_join proper given
    rw [empty, List.splitOn_nil] at pieces
    exact absurd rfl (proper [] (pieces ▸ List.mem_cons_self)).ne_nil
  have cut : Text.beforeTail? (Text.join ['/'] last) (rooted (before ++ last))
      = some (before.flatMap ('/' :: ·) ++ ['/']) := by
    rw [whole, Text.beforeTail?_append]
  unfold endsWithPath
  rw [slashed_join proper, dropHere_join proper, if_neg nonempty, read]
  simp [cut]

end Uri

end AsmServer
