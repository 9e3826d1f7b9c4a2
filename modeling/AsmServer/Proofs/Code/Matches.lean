import AsmServer.Code.Occurrence
import AsmServer.Proofs.Code.Tokens
import AsmServer.Proofs.Text.Search

/-!
# Whole matches are tokens

A name is looked for from the left, and a match that is glued to further name characters does
not count. What counts are the tokens that are the name: inside a longer token every match is
glued, and no match reaches across the end of a token. In the code of a line these are the
occurrences that are not in the comment.
-/

namespace AsmServer

namespace Code

variable {name before seen rest after line token : Text}

/-- The texts before the tokens that are `name`, where `before` stands before the first token. -/
def placesFrom (name before : Text) : List Text → List Text
  | [] => []
  | token :: rest =>
    (if token = name then [before] else []) ++ placesFrom name (before ++ token) rest

/-! ## The search -/

/-- A match at the start of a token is inside the token. -/
theorem exists_of_afterLead? (token : Text) (proper : IsName name) (ends : Ends rest)
    (found : Text.afterLead? name (token ++ rest) = some after) :
    ∃ more, token = name ++ more ∧ after = more ++ rest := by
  rcases List.append_eq_append_iff.mp (Text.afterLead?_eq_some_iff.mp found) with
    ⟨beyond, longer, behind⟩ | inside
  · cases beyond with
    | nil => exact ⟨[], by simpa using longer.symm, by simpa using behind.symm⟩
    | cons c others =>
      have nameChar : isNameChar c = true := proper.2 c (by simp [longer])
      have other : isNameChar c = false := ends c (by simp [behind])
      simp [nameChar] at other
  · exact inside

/-- Inside a token no match stands alone. -/
theorem filter_matchesFrom_inside {skip : Nat} (proper : IsName name)
    (all : ∀ c ∈ token, isNameChar c = true) (ends : Ends rest)
    (inside : seen.head?.any isNameChar = true) (short : skip ≤ token.length) :
    (matchesFrom name seen skip (token ++ rest)).filter standsAlone =
      (matchesFrom name (token.reverse ++ seen) 0 rest).filter standsAlone := by
  induction token generalizing seen skip with
  | nil =>
    obtain rfl : skip = 0 := Nat.le_zero.mp short
    rfl
  | cons c others ih =>
    have step {k : Nat} (fits : k ≤ others.length) :
        (matchesFrom name (c :: seen) k (others ++ rest)).filter standsAlone =
          (matchesFrom name ((c :: others).reverse ++ seen) 0 rest).filter standsAlone := by
      have first : (c :: seen).head?.any isNameChar = true := all c List.mem_cons_self
      simpa using ih (fun d member => all d (List.mem_cons_of_mem _ member)) first fits
    cases skip with
    | succ k => exact step (Nat.le_of_succ_le_succ short)
    | zero =>
      rw [List.cons_append, matchesFrom]
      cases found : Text.afterLead? name (c :: (others ++ rest)) with
      | none => exact step (Nat.zero_le _)
      | some after =>
        obtain ⟨more, split, -⟩ := exists_of_afterLead? (c :: others) proper ends found
        have fits : name.length - 1 ≤ others.length := by
          have := congrArg List.length split
          simp only [List.length_cons, List.length_append] at this
          omega
        have glued : ¬standsAlone ⟨seen.reverse, name, after⟩ = true := by
          simp [standsAlone, inside]
        simp only [List.filter_cons_of_neg glued]
        exact step fits

/-- A token has a match that stands alone if and only if it is the name. -/
theorem filter_matchesFrom_token (proper : IsName name) (whole : IsName token) (ends : Ends rest)
    (apart : seen.head?.any isNameChar = false) :
    (matchesFrom name seen 0 (token ++ rest)).filter standsAlone =
      (if token = name then [⟨seen.reverse, name, rest⟩] else []) ++
        (matchesFrom name (token.reverse ++ seen) 0 rest).filter standsAlone := by
  obtain ⟨c, others, rfl⟩ := List.exists_cons_of_ne_nil whole.1
  have behind {k : Nat} (fits : k ≤ others.length) :
      (matchesFrom name (c :: seen) k (others ++ rest)).filter standsAlone =
        (matchesFrom name ((c :: others).reverse ++ seen) 0 rest).filter standsAlone := by
    have first : (c :: seen).head?.any isNameChar = true := whole.2 c List.mem_cons_self
    simpa using filter_matchesFrom_inside proper
      (fun d member => whole.2 d (List.mem_cons_of_mem _ member)) ends first fits
  rw [List.cons_append, matchesFrom]
  cases found : Text.afterLead? name (c :: (others ++ rest)) with
  | none =>
    have differs : c :: others ≠ name := by
      rintro rfl
      rw [← List.cons_append, Text.afterLead?_append] at found
      cases found
    simp only [if_neg differs, List.nil_append]
    exact behind (Nat.zero_le _)
  | some after =>
    obtain ⟨more, split, rfl⟩ := exists_of_afterLead? (c :: others) proper ends found
    have fits : name.length - 1 ≤ others.length := by
      have := congrArg List.length split
      simp only [List.length_cons, List.length_append] at this
      omega
    cases more with
    | nil =>
      have same : c :: others = name := by simpa using split
      have alone : standsAlone ⟨seen.reverse, name, rest⟩ = true := by
        simp [standsAlone, apart, ends.any_head?]
      simp only [List.nil_append, List.filter_cons_of_pos alone, if_pos same]
      exact congrArg _ (behind fits)
    | cons d more =>
      have differs : c :: others ≠ name := by simp [split]
      have next : isNameChar d = true := whole.2 d (by simp [split])
      have glued : ¬standsAlone ⟨seen.reverse, name, d :: more ++ rest⟩ = true := by
        simp [standsAlone, next]
      simp only [List.filter_cons_of_neg glued, if_neg differs, List.nil_append]
      exact behind fits

theorem map_before_matchesFrom (proper : IsName name)
    (apart : seen.head?.any isNameChar = true → Ends line) :
    ((matchesFrom name seen 0 line).filter standsAlone).map (·.before) =
      placesFrom name seen.reverse (tokens line) := by
  induction line using token_induction generalizing seen with
  | nil => rfl
  | other c rest other ih =>
    have missing : Text.afterLead? name (c :: rest) = none := by
      refine Option.eq_none_iff_forall_ne_some.mpr fun after found => ?_
      have same := Text.afterLead?_eq_some_iff.mp found
      exact proper.not_ends after (same ▸ fun d first => Option.some.inj first ▸ other)
    have behind : (c :: seen).head?.any isNameChar = true → Ends rest := by
      intro name
      simp [other] at name
    rw [matchesFrom, missing, tokens_cons other, placesFrom, if_neg (proper.ne_singleton other)]
    simpa using ih behind
  | name token rest whole ends ih =>
    have free : seen.head?.any isNameChar = false :=
      Bool.eq_false_iff.mpr fun glued => whole.not_ends rest (apart glued)
    rw [filter_matchesFrom_token proper whole ends free, tokens_name_append whole ends, placesFrom,
      List.map_append, ih fun _ => ends, List.reverse_append, List.reverse_reverse]
    split <;> rfl

/-- The name stands as a whole where a token is the name. -/
theorem map_before_wholeMatches (proper : IsName name) (line : Text) :
    (wholeMatches name line).map (·.before) = placesFrom name [] (tokens line) := by
  rw [wholeMatches, if_neg proper.1]
  exact map_before_matchesFrom proper fun glued => nomatch glued

/-! ## The places of a name -/

variable {texts : List Text} {p : Text}

theorem placesFrom_append (name before : Text) (texts more : List Text) :
    placesFrom name before (texts ++ more) =
      placesFrom name before texts ++ placesFrom name (before ++ texts.flatten) more := by
  induction texts generalizing before with
  | nil => simp [placesFrom]
  | cons token rest ih => simp [placesFrom, ih]

/-- The name stands behind each of its places. -/
theorem prefix_of_mem_placesFrom (h : p ∈ placesFrom name before texts) :
    before <+: p ∧ p ++ name <+: before ++ texts.flatten := by
  induction texts generalizing before with
  | nil => cases h
  | cons token rest ih =>
    rw [List.flatten_cons, ← List.append_assoc]
    rcases List.mem_append.mp h with here | behind
    · split at here
      · next same =>
        rw [List.mem_singleton.mp here, same]
        exact ⟨List.prefix_rfl, List.prefix_append _ _⟩
      · cases here
    · obtain ⟨longer, inside⟩ := ih behind
      exact ⟨(List.prefix_append _ _).trans longer, inside⟩

/-- Each place comes behind the name at the places before. -/
theorem pairwise_placesFrom (name before : Text) (texts : List Text) :
    (placesFrom name before texts).Pairwise fun p q => p ++ name <+: q := by
  induction texts generalizing before with
  | nil => exact .nil
  | cons token rest ih =>
    refine List.pairwise_append.mpr ⟨?_, ih _, fun p here q behind => ?_⟩
    · split
      · exact List.pairwise_singleton _ _
      · exact .nil
    · split at here
      · next same =>
        rw [List.mem_singleton.mp here, ← same]
        exact (prefix_of_mem_placesFrom behind).1
      · cases here

/-! ## Occurrences in code -/

theorem text_of_mem_matchesFrom {skip : Nat} {word : Word}
    (h : word ∈ matchesFrom name seen skip line) : word.text = name := by
  induction line generalizing seen skip with
  | nil => cases h
  | cons c rest ih =>
    unfold matchesFrom at h
    split at h
    · exact ih h
    · split at h
      · rcases List.mem_cons.mp h with rfl | behind
        · rfl
        · exact ih behind
      · exact ih h

/-- The range of a name with this text before it. -/
def rangeAt (name : Text) (number : Nat) (before : Text) : Range :=
  .onLine number (Text.width before) (Text.width (before ++ name))

/-- The places of a name that are not in the comment are those in the code. -/
theorem filter_placesFrom (proper : IsName name) (line : Text) :
    (placesFrom name [] (tokens line)).filter (·.length < (code line).length) =
      placesFrom name [] (tokens (code line)) := by
  have parts : tokens line = tokens (code line) ++ tokens (line.drop (code line).length) := by
    have split : code line ++ line.drop (code line).length = line :=
      List.prefix_iff_eq_append.mp (prefix_codeFrom .plain line)
    have ends : Ends (line.drop (code line).length) := ends_drop_codeFrom .plain line
    rw [← tokens_append ends, split]
  rw [parts, placesFrom_append, List.filter_append, flatten_tokens, List.nil_append]
  have inCode : ∀ p ∈ placesFrom name [] (tokens (code line)), p.length < (code line).length := by
    intro p member
    have fits := (prefix_of_mem_placesFrom member).2.length_le
    rw [List.nil_append, flatten_tokens, List.length_append] at fits
    have := List.length_pos_iff.mpr proper.1
    omega
  have inComment : ∀ p ∈ placesFrom name (code line) (tokens (line.drop (code line).length)),
      ¬p.length < (code line).length :=
    fun p member => Nat.not_lt.mpr (prefix_of_mem_placesFrom member).1.length_le
  rw [List.filter_eq_self.mpr fun p member => decide_eq_true (inCode p member),
    List.filter_eq_nil_iff.mpr fun p member => by simpa using inComment p member, List.append_nil]

section occurrenceKind

variable {symbol : Symbol} {definedHere : Bool} {number extent : Nat} {word : Word}

theorem occurrenceKind_eq_comment_iff :
    occurrenceKind symbol definedHere number extent word = .comment ↔
      extent ≤ word.before.length := by
  rw [occurrenceKind]
  split
  · next behind => simpa using behind
  · next inCode => split <;> simpa using inCode

theorem occurrenceKind_eq_declaration_iff :
    occurrenceKind symbol definedHere number extent word = .declaration ↔
      ¬extent ≤ word.before.length ∧ definedHere = true ∧ symbol.line = number + 1 ∧
        symbol.firstColumn = word.first := by
  rw [occurrenceKind]
  split
  · next behind => simp [behind]
  · next inCode => split <;> simp_all

end occurrenceKind

/-- The occurrences that are not in the comment are the tokens of the code that are the name. -/
theorem map_range_filter_occurrencesOnLine {symbol : Symbol} (proper : IsName symbol.name)
    (definedHere : Bool) (number : Nat) (line : Text) :
    ((occurrencesOnLine symbol definedHere number line).filter (·.kind ≠ .comment)).map (·.range) =
      (placesFrom symbol.name [] (tokens (code line))).map (rangeAt symbol.name number) := by
  have inCode (word : Word) :
      occurrenceKind symbol definedHere number (code line).length word ≠ .comment ↔
        word.before.length < (code line).length :=
    occurrenceKind_eq_comment_iff.not.trans Nat.not_le
  have ranged : ∀ word ∈ wholeMatches symbol.name line,
      word.range number = rangeAt symbol.name number word.before := by
    intro word member
    rw [wholeMatches, if_neg proper.1] at member
    rw [rangeAt, ← text_of_mem_matchesFrom (List.mem_filter.mp member).1]
    rfl
  calc ((occurrencesOnLine symbol definedHere number line).filter (·.kind ≠ .comment)).map (·.range)
    _ = ((wholeMatches symbol.name line).filter (·.before.length < (code line).length)).map
          (·.range number) := by
        simp only [occurrencesOnLine, List.filter_map, List.map_map, Function.comp_def, inCode]
    _ = ((wholeMatches symbol.name line).filter (·.before.length < (code line).length)).map
          (rangeAt symbol.name number ·.before) :=
        List.map_congr_left fun word member => ranged word (List.mem_filter.mp member).1
    _ = (((wholeMatches symbol.name line).map (·.before)).filter
          (·.length < (code line).length)).map (rangeAt symbol.name number) := by
        simp only [List.filter_map, List.map_map, Function.comp_def]
    _ = _ := by rw [map_before_wholeMatches proper, filter_placesFrom proper]

end Code

end AsmServer
