import AsmServer.Code.Identifier
import AsmServer.Proofs.Text.Search
import Mathlib.Data.List.SplitBy
import Mathlib.Data.List.TakeWhile

/-!
# Names in a line

A text falls into tokens: the maximal runs of name characters, and every other character by
itself. To rename is to put a new name for the tokens of the code that are the old name; the
comment stays.

Name characters are neither quotes nor semicolons, so a name leaves the place of what comes
behind it whatever its characters are. Hence a new name moves no comment, and a renaming to a
name that is not in the code is undone by the renaming back.
-/

namespace AsmServer

namespace Code

/-- Name characters and nothing else, at least one. -/
def IsName (t : Text) : Prop := t ≠ [] ∧ ∀ c ∈ t, isNameChar c = true

instance (t : Text) : Decidable (IsName t) :=
  decidable_of_iff (t ≠ [] ∧ t.all isNameChar = true) (by rw [IsName, List.all_eq_true])

/-- No name goes on at the start of the text. -/
def Ends (t : Text) : Prop := ∀ c ∈ t.head?, isNameChar c = false

variable {name newName word rest line : Text} {c : Char} {place : Place}

theorem Ends.any_head? (ends : Ends rest) : rest.head?.any isNameChar = false := by
  cases rest with
  | nil => rfl
  | cons c _ => exact ends c rfl

theorem ends_dropWhile (t : Text) : Ends (t.dropWhile isNameChar) := by
  intro c first
  have stops := List.head?_dropWhile_not isNameChar t
  simpa [Option.mem_def.mp first] using stops

theorem IsName.not_ends (h : IsName name) (rest : Text) : ¬Ends (name ++ rest) := by
  obtain ⟨first, others, rfl⟩ := List.exists_cons_of_ne_nil h.1
  intro ends
  have other : isNameChar first = false := ends first rfl
  simp [h.2 first List.mem_cons_self] at other

theorem IsName.ne_singleton (h : IsName name) (other : isNameChar c = false) : [c] ≠ name := by
  rintro rfl
  simp [h.2 c List.mem_cons_self] at other

/-- What is under a cursor is a name. -/
theorem isName_of_identifierAt? {column : Nat} {word : Word}
    (h : identifierAt? line column = some word) : IsName word.text := by
  obtain ⟨⟨left, _⟩, -, h⟩ := Option.bind_eq_some_iff.mp h
  dsimp only at h
  split at h
  · cases h
  · split at h
    · cases h
    · next some =>
      cases h
      refine ⟨some, fun c member => ?_⟩
      rcases List.mem_append.mp member with before | behind
      · exact List.mem_takeWhile_imp (List.mem_reverse.mp before)
      · exact List.mem_takeWhile_imp behind

/-! ## Tokens -/

/-- The maximal runs of name characters, and the other characters one by one. -/
def tokens (t : Text) : List Text := t.splitBy fun a b => isNameChar a && isNameChar b

@[simp] theorem flatten_tokens (t : Text) : (tokens t).flatten = t := List.flatten_splitBy _ _

theorem tokens_append (ends : Ends rest) : tokens (line ++ rest) = tokens line ++ tokens rest := by
  refine List.splitBy_append fun a _ b first => ?_
  rw [ends b first, Bool.and_false]

theorem tokens_cons (other : isNameChar c = false) (rest : Text) :
    tokens (c :: rest) = [c] :: tokens rest := by
  refine List.splitBy_append (l := [c]) fun a last b _ => ?_
  obtain rfl : c = a := Option.some.inj last
  rw [other, Bool.false_and]

theorem tokens_of_isName (h : IsName word) : tokens word = [word] := by
  refine List.splitBy_of_isChain h.1 (List.Pairwise.isChain ?_)
  exact List.pairwise_of_forall_mem_list fun a first b second => by simp [h.2 a first, h.2 b second]

theorem tokens_name_append (h : IsName word) (ends : Ends rest) :
    tokens (word ++ rest) = word :: tokens rest := by
  rw [tokens_append ends, tokens_of_isName h, List.singleton_append]

/-- A text is read token by token. -/
@[elab_as_elim]
theorem token_induction {motive : Text → Prop} (nil : motive [])
    (other : ∀ c rest, isNameChar c = false → motive rest → motive (c :: rest))
    (name : ∀ word rest, IsName word → Ends rest → motive rest → motive (word ++ rest))
    (t : Text) : motive t := by
  induction size : t.length using Nat.strong_induction_on generalizing t with
  | _ size ih =>
    subst size
    cases t with
    | nil => exact nil
    | cons c rest =>
      by_cases first : isNameChar c = true
      · have more : ((c :: rest).dropWhile isNameChar).length < (c :: rest).length := by
          rw [List.dropWhile_cons_of_pos first]
          exact Nat.lt_succ_of_le (List.length_dropWhile_le _ _)
        have whole : IsName ((c :: rest).takeWhile isNameChar) :=
          ⟨by simp [first], fun _ => List.mem_takeWhile_imp⟩
        rw [← List.takeWhile_append_dropWhile (p := isNameChar) (l := c :: rest)]
        exact name _ _ whole (ends_dropWhile _) (ih _ more _ rfl)
      · exact other c rest (Bool.eq_false_iff.mpr first) (ih _ (by simp) rest rfl)

/-! ## The place behind a name -/

/-- The place behind a name that starts at a place. -/
def Place.afterName : Place → Place
  | .quoted => .quoted
  | .plain | .literal => .plain

@[simp] theorem Place.afterName_afterName (place : Place) :
    place.afterName.afterName = place.afterName := by
  cases place <;> rfl

theorem Place.next_of_isNameChar (h : isNameChar c = true) (place : Place) :
    place.next c = place.afterName := by
  have double : c ≠ '"' := by rintro rfl; exact absurd h (by decide)
  have single : c ≠ '\'' := by rintro rfl; exact absurd h (by decide)
  cases place <;> simp [next, afterName, double, single]

theorem codeFrom_cons_of_isNameChar (h : isNameChar c = true) (place : Place) (rest : Text) :
    codeFrom place (c :: rest) = c :: codeFrom place.afterName rest := by
  have mark : c ≠ ';' := by rintro rfl; exact absurd h (by decide)
  simp [codeFrom, mark, Place.next_of_isNameChar h]

/-- A name is code. -/
theorem codeFrom_name_append (h : IsName word) (place : Place) (rest : Text) :
    codeFrom place (word ++ rest) = word ++ codeFrom place.afterName rest := by
  obtain ⟨some, all⟩ := h
  induction word generalizing place with
  | nil => exact absurd rfl some
  | cons c others ih =>
    rw [List.cons_append, codeFrom_cons_of_isNameChar (all c List.mem_cons_self)]
    cases others with
    | nil => rfl
    | cons d others =>
      rw [ih _ (List.cons_ne_nil _ _) (fun c member => all c (List.mem_cons_of_mem _ member)),
        Place.afterName_afterName]
      rfl

theorem prefix_codeFrom (place : Place) (t : Text) : codeFrom place t <+: t := by
  induction t generalizing place with
  | nil => exact List.prefix_rfl
  | cons c rest ih =>
    unfold codeFrom
    split
    · exact List.nil_prefix
    · exact List.cons_prefix_cons.mpr ⟨rfl, ih _⟩

/-- What is behind the code starts with no name. -/
theorem ends_drop_codeFrom (place : Place) (t : Text) :
    Ends (t.drop (codeFrom place t).length) := by
  induction t generalizing place with
  | nil => exact fun _ first => nomatch first
  | cons c rest ih =>
    unfold codeFrom
    split
    · next comment =>
      intro d first
      obtain rfl : c = d := Option.some.inj first
      rw [comment.2]
      decide
    · exact ih _

theorem Ends.codeFrom (ends : Ends rest) (place : Place) : Ends (codeFrom place rest) := by
  intro c first
  obtain ⟨behind, split⟩ := prefix_codeFrom place rest
  refine ends c ?_
  rw [← split, List.head?_append, Option.mem_def.mp first]
  rfl

/-! ## Renaming in a line -/

/-- Put `newName` for every token that is `name`. -/
def substitute (name newName t : Text) : Text :=
  (tokens t).flatMap fun token => if token = name then newName else token

/-- The rest of a line with `newName` for `name` in its code. -/
def renamedFrom (name newName : Text) (place : Place) (t : Text) : Text :=
  substitute name newName (codeFrom place t) ++ t.drop (codeFrom place t).length

/-- The line with `newName` for `name` in its code; its comment stays. -/
def renamed (name newName line : Text) : Text := renamedFrom name newName .plain line

@[simp] theorem substitute_nil : substitute name newName [] = [] := rfl

theorem substitute_cons (proper : IsName name) (other : isNameChar c = false) (rest : Text) :
    substitute name newName (c :: rest) = c :: substitute name newName rest := by
  rw [substitute, tokens_cons other, List.flatMap_cons, if_neg (proper.ne_singleton other)]
  rfl

theorem substitute_name_append (h : IsName word) (ends : Ends rest) :
    substitute name newName (word ++ rest) =
      (if word = name then newName else word) ++ substitute name newName rest := by
  rw [substitute, tokens_name_append h ends, List.flatMap_cons]
  rfl

@[simp] theorem renamedFrom_nil : renamedFrom name newName place [] = [] := rfl

/-- A comment stays. -/
theorem renamedFrom_comment (rest : Text) :
    renamedFrom name newName .plain (';' :: rest) = ';' :: rest := by
  simp [renamedFrom, codeFrom]

theorem renamedFrom_cons (proper : IsName name) (other : isNameChar c = false)
    (inCode : ¬(place = .plain ∧ c = ';')) (rest : Text) :
    renamedFrom name newName place (c :: rest) =
      c :: renamedFrom name newName (place.next c) rest := by
  rw [renamedFrom, codeFrom, if_neg inCode, substitute_cons proper other]
  rfl

theorem renamedFrom_name_append (h : IsName word) (ends : Ends rest) (place : Place) :
    renamedFrom name newName place (word ++ rest) =
      (if word = name then newName else word) ++
        renamedFrom name newName place.afterName rest := by
  rw [renamedFrom, codeFrom_name_append h, substitute_name_append h (ends.codeFrom _),
    List.length_append, List.drop_length_add_append, List.append_assoc]
  rfl

/-- A text that starts with no name does so after a renaming. -/
theorem Ends.renamedFrom (proper : IsName name) (ends : Ends rest) (place : Place) :
    Ends (renamedFrom name newName place rest) := by
  cases rest with
  | nil => simpa using ends
  | cons c rest =>
    have other : isNameChar c = false := ends c rfl
    by_cases comment : place = .plain ∧ c = ';'
    · obtain ⟨rfl, rfl⟩ := comment
      rwa [renamedFrom_comment]
    · rw [renamedFrom_cons proper other comment]
      intro d first
      rwa [← Option.some.inj first]

/-- The renaming to a name that is not in the code is undone by the renaming back. -/
theorem renamedFrom_renamedFrom (proper : IsName name) (proper' : IsName newName)
    (fresh : newName ∉ tokens (codeFrom place line)) :
    renamedFrom newName name place (renamedFrom name newName place line) = line := by
  induction line using token_induction generalizing place with
  | nil => rfl
  | other c rest other ih =>
    by_cases comment : place = .plain ∧ c = ';'
    · obtain ⟨rfl, rfl⟩ := comment
      rw [renamedFrom_comment, renamedFrom_comment]
    · have behind : newName ∉ tokens (codeFrom (place.next c) rest) := by
        rw [codeFrom, if_neg comment, tokens_cons other] at fresh
        exact fun member => fresh (List.mem_cons_of_mem _ member)
      rw [renamedFrom_cons proper other comment, renamedFrom_cons proper' other comment, ih behind]
  | name word rest whole ends ih =>
    rw [codeFrom_name_append whole, tokens_name_append whole (ends.codeFrom _)] at fresh
    obtain ⟨here, behind⟩ := not_or.mp (List.mem_cons.not.mp fresh)
    rw [renamedFrom_name_append whole ends]
    by_cases same : word = name
    · rw [if_pos same, renamedFrom_name_append proper' (ends.renamedFrom proper _), if_pos rfl,
        ih behind, same]
    · rw [if_neg same, renamedFrom_name_append whole (ends.renamedFrom proper _),
        if_neg (Ne.symm here), ih behind]

/-- The renaming of a line to a name that its code does not have is undone by the renaming
back. -/
theorem renamed_renamed (proper : IsName name) (proper' : IsName newName)
    (fresh : newName ∉ tokens (code line)) :
    renamed newName name (renamed name newName line) = line :=
  renamedFrom_renamedFrom proper proper' fresh

/-! ## Renaming in a text -/

theorem dropReturn_or (piece : Text) :
    piece = Text.dropReturn piece ∨ piece = Text.dropReturn piece ++ ['\r'] := by
  unfold Text.dropReturn
  split
  · next returned => exact .inr (List.dropLast_append_getLast? _ returned).symm
  · exact .inl rfl

theorem codeFrom_append_return (place : Place) (line : Text) :
    codeFrom place (line ++ ['\r']) = codeFrom place line ∨
      codeFrom place (line ++ ['\r']) = codeFrom place line ++ ['\r'] := by
  induction line generalizing place with
  | nil => exact .inr (by simp [codeFrom])
  | cons c rest ih =>
    rw [List.cons_append, codeFrom, codeFrom]
    split
    · exact .inl rfl
    · exact (ih _).imp (congrArg (c :: ·)) (congrArg (c :: ·))

/-- A carriage return at the end of a line is a token of its own, if it is code. -/
theorem tokens_code_dropReturn (piece : Text) :
    tokens (code piece) = tokens (code (Text.dropReturn piece)) ∨
      tokens (code piece) = tokens (code (Text.dropReturn piece)) ++ [['\r']] := by
  have ends : Ends ['\r'] := by
    intro c first
    rw [← Option.some.inj first]
    decide
  have known := dropReturn_or piece
  generalize Text.dropReturn piece = line at known
  rcases known with rfl | rfl
  · exact .inl rfl
  · refine (codeFrom_append_return .plain line).imp (congrArg tokens) fun inCode => ?_
    rw [code, inCode, tokens_append ends]
    rfl

/-- The text with `newName` for `name` in the code of its lines. -/
def renamedText (name newName text : Text) : Text :=
  Text.join ['\n'] ((text.splitOn '\n').map (renamed name newName))

theorem mem_or_mem_of_mem_renamed (h : c ∈ renamed name newName line) : c ∈ newName ∨ c ∈ line := by
  rcases List.mem_append.mp h with inCode | comment
  · obtain ⟨token, member, here⟩ := List.mem_flatMap.mp inCode
    split at here
    · exact .inl here
    · have within : c ∈ (tokens (code line)).flatten := List.mem_flatten_of_mem member here
      rw [flatten_tokens] at within
      exact .inr ((prefix_codeFrom .plain line).subset within)
  · exact .inr (List.mem_of_mem_drop comment)

/-- The renaming of a text to a name that its code does not have is undone by the renaming
back. -/
theorem renamedText_renamedText {text : Text} (proper : IsName name) (proper' : IsName newName)
    (fresh : ∀ line ∈ Text.lines text, newName ∉ tokens (code line)) :
    renamedText newName name (renamedText name newName text) = text := by
  have split : (renamedText name newName text).splitOn '\n' =
      (text.splitOn '\n').map (renamed name newName) := by
    refine List.splitOn_intercalate _ ?_ ?_
    · rintro _ member within
      obtain ⟨piece, listed, rfl⟩ := List.mem_map.mp member
      rcases mem_or_mem_of_mem_renamed within with inName | before
      · exact absurd (proper'.2 _ inName) (by decide)
      · exact (Text.mem_splitOn listed).1 before
    · simp
  have undone : ∀ piece ∈ text.splitOn '\n',
      renamed newName name (renamed name newName piece) = piece := by
    intro piece listed
    refine renamed_renamed proper proper' ?_
    have absent := fresh _ (List.mem_map_of_mem listed)
    rcases tokens_code_dropReturn piece with same | returned
    · rwa [same]
    · have differs : ['\r'] ≠ newName := proper'.ne_singleton (by decide)
      simpa [returned, absent] using differs.symm
  have back : ((text.splitOn '\n').map (renamed name newName)).map (renamed newName name) =
      text.splitOn '\n' := by
    rw [List.map_map]
    exact (List.map_congr_left undone).trans (List.map_id _)
  rw [renamedText, split, back]
  exact List.intercalate_splitOn _

end Code

end AsmServer
