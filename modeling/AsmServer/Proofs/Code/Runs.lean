import AsmServer.Proofs.Code.Matches
import AsmServer.Proofs.Text.Utf8

/-!
# Occurrences are maximal runs

A run is a maximal piece of name characters on a line. The occurrences of a symbol are the runs
that are its name, in the order of lines and columns. To skip what a match covers, while looking
for the next one, hides none of them, since a match that is glued to a name character is no run
and no two runs share a character.

The columns of an occurrence cut out the name again. An occurrence at or behind the start of the
comment is in the comment, and of the others the one at the recorded place is the declaration.
-/

namespace AsmServer

/-- The text between two columns of a line. -/
def Text.between? (first last : Nat) (line : Text) : Option Text := do
  let (before, _) ← splitAtColumn? first line
  let (upTo, _) ← splitAtColumn? last line
  return upTo.drop before.length

theorem Text.between?_width (before text after : Text) :
    between? (width before) (width (before ++ text)) (before ++ text ++ after) = some text := by
  have start : splitAtColumn? (width before) (before ++ text ++ after) =
      some (before, text ++ after) := by
    rw [List.append_assoc, splitAtColumn?_width_append]
  simp only [between?, start, splitAtColumn?_width_append, Option.bind_eq_bind, Option.bind_some,
    List.drop_left]
  rfl

namespace Code

/-- The line that a word is on. -/
def Word.line (word : Word) : Text := word.before ++ word.text ++ word.after

/-- Whether a word is a maximal run of name characters on its line. -/
structure Word.IsRun (word : Word) : Prop where
  name : IsName word.text
  start : ∀ c ∈ word.before.getLast?, isNameChar c = false
  stop : Ends word.after

/-- A word on a line of this number. -/
structure Site where
  number : Nat
  word : Word
  deriving DecidableEq, Repr

namespace Site

/-- Whether the word is a run on a line of a file that is `name`. -/
structure IsRunOf (name : Text) (lines : List Text) (site : Site) : Prop where
  line : lines[site.number]? = some site.word.line
  run : site.word.IsRun
  text : site.word.text = name

/-- The first word ends before the second starts. -/
def Before (first second : Site) : Prop :=
  first.number < second.number ∨
    first.number = second.number ∧ first.word.last ≤ second.word.first

/-- Whether the word starts at or behind the start of the comment of its line. -/
def InComment (site : Site) : Prop :=
  ∃ start, commentStart? site.word.line = some start ∧ start ≤ Text.byteSize site.word.before

/-- Whether the definition of a symbol is recorded where the word starts. -/
def IsRecorded (symbol : Symbol) (site : Site) : Prop :=
  symbol.line = site.number + 1 ∧ symbol.firstColumn = site.word.first

/-- Whether an occurrence is the one at a site. -/
structure Occurs (symbol : Symbol) (definedHere : Bool) (site : Site) (occurrence : Occurrence) :
    Prop where
  range : occurrence.range = site.word.range site.number
  cut : Text.between? occurrence.range.start.column occurrence.range.stop.column site.word.line =
    some symbol.name
  comment : occurrence.kind = .comment ↔ site.InComment
  declaration : occurrence.kind = .declaration ↔
    ¬site.InComment ∧ definedHere = true ∧ site.IsRecorded symbol

end Site

variable {name seen line before after : Text} {lines : List Text} {word : Word} {symbol : Symbol}
  {definedHere : Bool} {number : Nat}

/-! ## Whole matches -/

theorem line_of_mem_matchesFrom {skip : Nat} (h : word ∈ matchesFrom name seen skip line) :
    word.line = seen.reverse ++ line := by
  induction line generalizing seen skip with
  | nil => cases h
  | cons c rest ih =>
    have later {skip : Nat} (h : word ∈ matchesFrom name (c :: seen) skip rest) :
        word.line = seen.reverse ++ c :: rest := by simpa using ih h
    rw [matchesFrom.eq_def] at h
    dsimp only at h
    split at h
    · exact later h
    · split at h
      · next after found =>
        obtain rfl | behind := List.mem_cons.mp h
        · simp [Word.line, Text.afterLead?_eq_some_iff.mp found]
        · exact later behind
      · exact later h

/-- Before a name that follows no name character, the tokens are those of the text before it. -/
theorem tokens_append_of_start (start : ∀ c ∈ before.getLast?, isNameChar c = false)
    (rest : Text) : tokens (before ++ rest) = tokens before ++ tokens rest := by
  refine List.splitBy_append fun a last b _ => ?_
  rw [start a last, Bool.false_and]

/-- A run is a token. -/
theorem Word.IsRun.mem_placesFrom (h : word.IsRun) :
    word.before ∈ placesFrom word.text [] (tokens word.line) := by
  rw [line, List.append_assoc, tokens_append_of_start h.start, tokens_name_append h.name h.stop,
    placesFrom_append, flatten_tokens, placesFrom]
  simp

theorem standsAlone_iff : standsAlone word = true ↔
    (∀ c ∈ word.before.getLast?, isNameChar c = false) ∧ Ends word.after := by
  cases first : word.before.getLast? <;> cases behind : word.after.head? <;>
    simp [standsAlone, Ends, first, behind]

/-- The name stands as a whole exactly where a run is the name. -/
theorem mem_wholeMatches_iff (proper : IsName name) :
    word ∈ wholeMatches name line ↔ word.IsRun ∧ word.line = line ∧ word.text = name := by
  constructor
  · intro found
    rw [wholeMatches, if_neg proper.1] at found
    obtain ⟨found, alone⟩ := List.mem_filter.mp found
    obtain ⟨start, stop⟩ := standsAlone_iff.mp alone
    have text := text_of_mem_matchesFrom found
    exact ⟨⟨text ▸ proper, start, stop⟩, line_of_mem_matchesFrom found, text⟩
  · rintro ⟨run, rfl, rfl⟩
    have placed := run.mem_placesFrom
    rw [← map_before_wholeMatches proper] at placed
    obtain ⟨other, found, before⟩ := List.mem_map.mp placed
    have matched := found
    rw [wholeMatches, if_neg proper.1] at matched
    have text := text_of_mem_matchesFrom (List.mem_filter.mp matched).1
    have line : other.line = word.line := line_of_mem_matchesFrom (List.mem_filter.mp matched).1
    rw [Word.line, Word.line, before, text] at line
    have after : other.after = word.after := List.append_cancel_left line
    have same : other = word := by
      cases other
      cases word
      simp_all
    exact same ▸ found

/-- The matches that stand alone are in order and apart. -/
theorem pairwise_wholeMatches (proper : IsName name) (line : Text) :
    (wholeMatches name line).Pairwise fun a b => a.before ++ name <+: b.before := by
  have apart := pairwise_placesFrom name [] (tokens line)
  rw [← map_before_wholeMatches proper] at apart
  exact List.pairwise_map.mp apart

/-! ## Comments -/

/-- A run is in the comment if it starts behind the code. -/
theorem Site.inComment_iff {site : Site} (run : site.word.IsRun) :
    site.InComment ↔ (code site.word.line).length ≤ site.word.before.length := by
  have inCode : code site.word.line <+: site.word.line := prefix_codeFrom .plain _
  have inLine : site.word.before <+: site.word.line := by
    rw [Word.line, List.append_assoc]
    exact List.prefix_append _ _
  have longer : site.word.before.length < site.word.line.length := by
    have := List.length_pos_iff.mpr run.name.1
    rw [Word.line, List.length_append, List.length_append]
    omega
  rw [InComment, commentStart?]
  constructor
  · rintro ⟨start, starts, behind⟩
    by_contra before
    split at starts
    · cases starts
      have within := List.prefix_of_prefix_length_le inLine inCode (by omega)
      have := Text.byteSize_lt within (by omega)
      omega
    · cases starts
  · intro behind
    refine ⟨_, if_pos (by omega), ?_⟩
    exact Text.byteSize_mono (List.prefix_of_prefix_length_le inCode inLine behind)

/-! ## Sites -/

/-- The sites of a name on lines that start at number `number`. -/
def sitesFrom (name : Text) (number : Nat) : List Text → List Site
  | [] => []
  | line :: rest =>
    (wholeMatches name line).map (Site.mk number) ++ sitesFrom name (number + 1) rest

theorem mem_sitesFrom_iff (proper : IsName name) (passed : List Text) {site : Site} :
    site ∈ sitesFrom name passed.length lines ↔
      passed.length ≤ site.number ∧ site.IsRunOf name (passed ++ lines) := by
  induction lines generalizing passed with
  | nil =>
    refine iff_of_false (fun member => nomatch member) ?_
    rintro ⟨behind, line, -, -⟩
    have := (List.getElem?_eq_some_iff.mp line).1
    rw [List.append_nil] at this
    omega
  | cons line rest ih =>
    have longer : passed.length + 1 = (passed ++ [line]).length := by simp
    rw [sitesFrom, List.mem_append, longer, ih, List.append_assoc, List.singleton_append, ← longer]
    obtain ⟨number, word⟩ := site
    by_cases here : number = passed.length
    · subst here
      have known : (passed ++ line :: rest)[passed.length]? = some line := by simp
      constructor
      · rintro (found | ⟨behind, -⟩)
        · obtain ⟨_, matched, same⟩ := List.mem_map.mp found
          obtain ⟨-, rfl⟩ := Site.mk.inj same
          obtain ⟨run, rfl, text⟩ := (mem_wholeMatches_iff proper).mp matched
          exact ⟨Nat.le_refl _, known, run, text⟩
        · exact absurd behind (by simp)
      · rintro ⟨-, there, run, text⟩
        have same : word.line = line := Option.some.inj (there.symm.trans known)
        exact .inl (List.mem_map_of_mem ((mem_wholeMatches_iff proper).mpr ⟨run, same, text⟩))
    · constructor
      · rintro (found | ⟨behind, site⟩)
        · obtain ⟨_, -, same⟩ := List.mem_map.mp found
          exact absurd (Site.mk.inj same).1.symm here
        · exact ⟨Nat.le_of_succ_le behind, site⟩
      · rintro ⟨behind, site⟩
        exact .inr ⟨Nat.lt_of_le_of_ne behind (Ne.symm here), site⟩

/-- The sites are in order and apart. -/
theorem pairwise_sitesFrom (proper : IsName name) (passed lines : List Text) :
    (sitesFrom name passed.length lines).Pairwise Site.Before := by
  induction lines generalizing passed with
  | nil => exact .nil
  | cons line rest ih =>
    have longer : passed.length + 1 = (passed ++ [line]).length := by simp
    rw [sitesFrom, longer]
    refine List.pairwise_append.mpr ⟨List.pairwise_map.mpr ?_, ih _, ?_⟩
    · refine (pairwise_wholeMatches proper line).imp_of_mem fun {a b} first _ apart =>
        .inr ⟨rfl, ?_⟩
      obtain ⟨-, -, text⟩ := (mem_wholeMatches_iff proper).mp first
      rw [Word.last, text]
      exact Text.width_mono apart
    · intro site here next behind
      obtain ⟨_, -, rfl⟩ := List.mem_map.mp here
      have later : passed.length + 1 ≤ next.number := by
        rw [longer]
        exact ((mem_sitesFrom_iff proper _).mp behind).1
      exact .inl later

/-- The occurrence at a site. -/
def Site.occurrence (symbol : Symbol) (definedHere : Bool) (site : Site) : Occurrence where
  range := site.word.range site.number
  kind := occurrenceKind symbol definedHere site.number (code site.word.line).length site.word

theorem occurrencesFrom_eq_map (proper : IsName symbol.name) (definedHere : Bool) (number : Nat)
    (lines : List Text) :
    occurrencesFrom symbol definedHere number lines =
      (sitesFrom symbol.name number lines).map (Site.occurrence symbol definedHere) := by
  induction lines generalizing number with
  | nil => rfl
  | cons line rest ih =>
    rw [occurrencesFrom, sitesFrom, List.map_append, ih, List.map_map, occurrencesOnLine]
    refine congrArg (· ++ _) (List.map_congr_left fun word matched => ?_)
    obtain ⟨-, rfl, -⟩ := (mem_wholeMatches_iff proper).mp matched
    rfl

/-- The occurrences are those at the sites of the name. -/
theorem exists_sites (proper : IsName symbol.name) (definedHere : Bool) (lines : List Text) :
    ∃ sites : List Site,
      (∀ site, site ∈ sites ↔ site.IsRunOf symbol.name lines) ∧ sites.Pairwise Site.Before ∧
      occurrences symbol definedHere lines = sites.map (Site.occurrence symbol definedHere) := by
  refine ⟨sitesFrom symbol.name 0 lines, fun site => ?_, pairwise_sitesFrom proper [] lines,
    occurrencesFrom_eq_map proper definedHere 0 lines⟩
  have known : site ∈ sitesFrom symbol.name 0 lines ↔ _ := mem_sitesFrom_iff proper []
  simpa using known

theorem mem_occurrences_iff (proper : IsName symbol.name) {o : Occurrence} :
    o ∈ occurrences symbol definedHere lines ↔
      ∃ site : Site, site.IsRunOf symbol.name lines ∧ site.occurrence symbol definedHere = o := by
  obtain ⟨sites, known, -, all⟩ := exists_sites proper definedHere lines
  simp only [all, List.mem_map, known]

theorem Site.IsRunOf.occurs {site : Site} (h : site.IsRunOf symbol.name lines) :
    site.Occurs symbol definedHere (site.occurrence symbol definedHere) where
  range := rfl
  cut := h.text ▸ Text.between?_width site.word.before site.word.text site.word.after
  comment := occurrenceKind_eq_comment_iff.trans (Site.inComment_iff h.run).symm
  declaration := by
    rw [Site.inComment_iff h.run]
    exact occurrenceKind_eq_declaration_iff

/-- Name characters are ASCII. -/
theorem isNameChar_ascii {c : Char} (h : isNameChar c = true) : c.toNat < 0x80 := by
  simp only [isNameChar, Bool.or_eq_true, beq_iff_eq] at h
  obtain (alnum | rfl) | rfl := h
  · exact Utf8.isAlphanum_ascii alnum
  · decide
  · decide

/-- Name characters have one column each. -/
theorem width_of_isNameChar {t : Text} (all : ∀ c ∈ t, isNameChar c = true) :
    Text.width t = t.length :=
  Text.width_of_ascii fun c member => isNameChar_ascii (all c member)

theorem Word.IsRun.first_lt_last (h : word.IsRun) : word.first < word.last := by
  have some := List.length_pos_iff.mpr h.name.1
  rw [first, last, Text.width_append, width_of_isNameChar h.name.2]
  omega

theorem length_le_one_of_pairwise {α : Type} {l : List α} (h : l.Pairwise fun _ _ => False) :
    l.length ≤ 1 := by
  match l with
  | [] => exact Nat.zero_le _
  | [_] => exact Nat.le_refl _
  | _ :: _ :: _ => exact (List.rel_of_pairwise_cons h (List.mem_cons_self ..)).elim

/-- A run is not before a run that starts at the same place. -/
theorem Site.Before.first_ne {a b : Site} (h : a.Before b) (run : a.word.IsRun)
    (same : a.number = b.number) : a.word.first ≠ b.word.first := by
  have wide := run.first_lt_last
  obtain other | ⟨-, apart⟩ := h
  · exact absurd same (Nat.ne_of_lt other)
  · omega

/-- The occurrences of a symbol are exactly the runs that are its name, in order and each once.
Their columns cut out the name; they are in the comment, the declaration or a reference as their
place tells, and there is one declaration at most. -/
theorem occurrences_exact (proper : IsName symbol.name) (definedHere : Bool) (lines : List Text) :
    ∃ sites : List Site,
      (∀ site, site ∈ sites ↔ site.IsRunOf symbol.name lines) ∧
      sites.Nodup ∧ sites.Pairwise Site.Before ∧
      List.Forall₂ (Site.Occurs symbol definedHere) sites (occurrences symbol definedHere lines) ∧
      ((occurrences symbol definedHere lines).filter (·.kind = .declaration)).length ≤ 1 := by
  obtain ⟨sites, known, apart, all⟩ := exists_sites proper definedHere lines
  have differ : sites.Pairwise fun a b => a.number = b.number → a.word.first ≠ b.word.first :=
    apart.imp_of_mem fun first _ before same => before.first_ne ((known _).mp first).run same
  refine ⟨sites, known, differ.imp fun other same => ?_, apart, ?_, ?_⟩
  · exact other (congrArg Site.number same) (congrArg (·.word.first) same)
  · rw [all, List.forall₂_map_right_iff, List.forall₂_same]
    intro site member
    exact ((known site).mp member).occurs
  · -- The declarations are at the recorded place, where one run at most starts.
    let declares (site : Site) : Bool :=
      decide ((site.occurrence symbol definedHere).kind = .declaration)
    have recorded : ∀ site ∈ sites.filter declares, site.IsRecorded symbol := by
      intro site declaring
      obtain ⟨member, kind⟩ := List.mem_filter.mp declaring
      exact (((known site).mp member).occurs.declaration.mp (of_decide_eq_true kind)).2.2
    have one : (sites.filter declares).Pairwise fun _ _ => False := by
      refine (differ.sublist List.filter_sublist).imp_of_mem fun {a b} first second other => ?_
      have here := recorded a first
      have there := recorded b second
      exact other (Nat.succ.inj (here.1.symm.trans there.1)) (here.2.symm.trans there.2)
    rw [all, List.filter_map, List.length_map]
    exact length_le_one_of_pairwise one

/-- A match that is glued to a character hides no run behind it, and columns are counted in
UTF-16 units. -/
theorem occurrences_of_a_repetitive_name :
    let symbol : Symbol := { name := "aa".toList, line := 2, firstColumn := 4 }
    let lines := ["aaa aa_aa aaaa".toList, "é😀 aa(aa) ; aa aaa".toList]
    IsName symbol.name ∧
    occurrences symbol true lines =
      [⟨.onLine 1 4 6, .declaration⟩, ⟨.onLine 1 7 9, .reference⟩, ⟨.onLine 1 13 15, .comment⟩] ∧
    ∃ sites : List Site,
      (∀ site, site ∈ sites ↔ site.IsRunOf symbol.name lines) ∧
      sites.Nodup ∧ sites.Pairwise Site.Before ∧
      List.Forall₂ (Site.Occurs symbol true) sites (occurrences symbol true lines) ∧
      ((occurrences symbol true lines).filter (·.kind = .declaration)).length ≤ 1 := by
  intro symbol lines
  have proper : IsName symbol.name := by decide +kernel
  exact ⟨proper, by decide +kernel, occurrences_exact proper true lines⟩

end Code

end AsmServer
