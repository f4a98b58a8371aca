/-
LinkGrammar/Proofs/Dictionary/Lines.lean

Which line the error of a dictionary names.

The reader of a dictionary keeps one number, the line on which the statement under way begins, and
sets it with the first character that is no blank.  Quotes are taken by another branch, which does
not set it.  So here each character is kept with its own line, and a dictionary is cut into
*stretches* of such characters, from one semicolon to the next.  The reader makes a statement of
every stretch that is not blank (`statements_eq`), with this line:

    a: D+;          opens with `a`         line 1
    "b": X-;        opens with a quote     line 1, that of the stretch before
    c: Y-;          opens with `c`         line 3

Main result: when a dictionary is refused with a line, that is the line of the character which
opens the statement at fault, unless that character is a quote.  Then it is the line on which the
latest statement before it opens that does not open with a quote, or 1 if there is none.
-/
import Mathlib
import LinkGrammar.Dictionary.Load
import LinkGrammar.Proofs.Link.Answer

namespace LinkGrammar

/-- The line that an error names. -/
def LoadError.line? : LoadError → Option Nat
  | missingColon line _ | emptyWord line | undefinedAbbreviation line _ => some line
  | malformedFormula _ _ => none

namespace Dictionary

/-! ### Stretches -/

/-- A character with the number of its line. -/
structure Located where
  line : Nat
  char : Char
  deriving DecidableEq

/-- The characters between two semicolons. -/
abbrev Stretch := List Located

namespace Stretch

/-- The text of a stretch, without the lines. -/
def text (s : Stretch) : Text := s.map Located.char

/-- The first character that is no blank. -/
def opening? (s : Stretch) : Option Located := s.find? fun l => !isBlank l.char

/-- The same, if it is no quote. -/
def plainOpening? (s : Stretch) : Option Located := s.opening?.filter fun l => l.char ≠ '"'

/-- The stretches that end on line `n`, and the one under way behind it, when `s` is under way
before it.  A comment is left out, and the end of the line stands for a space. -/
def ofLine (n : Nat) (quoted : Bool) (s : Stretch) : Text → List Stretch × Stretch
  | [] => ([], s ++ [⟨n, ' '⟩])
  | c :: t =>
    if c = '%' && !quoted then ([], s ++ [⟨n, ' '⟩])
    else if c = ';' && !quoted then (s :: (ofLine n quoted [] t).1, (ofLine n quoted [] t).2)
    else ofLine n (if c = '"' then !quoted else quoted) (s ++ [⟨n, c⟩]) t

/-- The stretches of numbered lines.  A directive is left out if nothing but blanks is under
way. -/
def ofLines (s : Stretch) : List (Text × Nat) → List Stretch
  | [] => [s]
  | (line, n) :: lines =>
    if s.opening? = none ∧ (Text.skipBlanks line).head? = some '#' then ofLines s lines
    else (ofLine n false s line).1 ++ ofLines (ofLine n false s line).2 lines

end Stretch

/-- The stretches of a dictionary text, the lines counted from 1. -/
def stretches (t : Text) : List Stretch := Stretch.ofLines [] ((Text.lines t).zipIdx 1)

/-- The line on which the latest of the stretches opens that does not open with a quote, and 1 if
there is none. -/
def lineBehind (ss : List Stretch) : Nat :=
  ((ss.filterMap Stretch.plainOpening?).getLast?.map Located.line).getD 1

/-- The statements of stretches that come behind `before`. -/
def statementsBehind (before : List Stretch) : List Stretch → List Statement
  | [] => []
  | s :: ss =>
    (if s.opening? = none then [] else [⟨lineBehind (before ++ [s]), s.text⟩]) ++
      statementsBehind (before ++ [s]) ss

/-- Stretches can be taken in two parts, the second behind the first. -/
theorem statementsBehind_append (before ss ss' : List Stretch) :
    statementsBehind before (ss ++ ss')
      = statementsBehind before ss ++ statementsBehind (before ++ ss) ss' := by
  induction ss generalizing before with
  | nil =>
    rw [List.append_nil]
    rfl
  | cons s ss ih =>
    show _ ++ statementsBehind (before ++ [s]) (ss ++ ss') = (_ ++ _) ++ _
    rw [ih, List.append_assoc, List.append_assoc]
    rfl

/-- The last stretch decides, unless nothing plain opens it. -/
theorem lineBehind_concat (ss : List Stretch) (s : Stretch) :
    lineBehind (ss ++ [s]) = (s.plainOpening?.map Located.line).getD (lineBehind ss) := by
  rw [lineBehind, lineBehind, List.filterMap_append]
  rcases h : s.plainOpening? with - | l
  · rw [List.filterMap_cons_none h, List.filterMap_nil, List.append_nil]
    rfl
  · rw [List.filterMap_cons_some h, List.filterMap_nil, List.getLast?_concat]
    rfl

namespace Stretch

variable {s : Stretch} {l : Located}

/-- A stretch has no opening if it is blank. -/
theorem isBlankText_text : Text.isBlankText s.text = true ↔ s.opening? = none := by
  simp [Text.isBlankText, text, opening?, List.find?_eq_none]

/-- A blank does not open a stretch. -/
theorem opening?_concat_of_isBlank (h : isBlank l.char = true) :
    opening? (s ++ [l]) = s.opening? := by
  simp [opening?, List.find?_append, h]

/-- Once a stretch is open its opening stays. -/
theorem opening?_concat_of_ne_none (h : s.opening? ≠ none) :
    opening? (s ++ [l]) = s.opening? := by
  obtain ⟨o, ho⟩ := Option.ne_none_iff_exists'.1 h
  unfold opening? at ho ⊢
  rw [List.find?_append, ho]
  rfl

/-- The first character that is no blank opens it. -/
theorem opening?_concat_of_eq_none (h : s.opening? = none) (hl : isBlank l.char = false) :
    opening? (s ++ [l]) = some l := by
  unfold opening? at h ⊢
  rw [List.find?_append, h]
  simp [hl]

/-- An opening other than a quote is plain. -/
theorem plainOpening?_of_char_ne (h : s.opening? = some l) (hl : l.char ≠ '"') :
    s.plainOpening? = some l := by
  rw [plainOpening?, h, Option.filter_some, if_pos (decide_eq_true hl)]

theorem plainOpening?_of_char_eq (h : s.opening? = some l) (hl : l.char = '"') :
    s.plainOpening? = none := by
  rw [plainOpening?, h, Option.filter_some, hl]
  rfl

theorem plainOpening?_congr {s' : Stretch} (h : opening? s = opening? s') :
    s.plainOpening? = s'.plainOpening? := by
  rw [plainOpening?, plainOpening?, h]

end Stretch

/-! ### The reader -/

namespace Reader

/-- What was read are the stretches `ss`, and `s` under way. -/
structure Tracks (r : Reader) (ss : List Stretch) (s : Stretch) : Prop where
  finished : r.finished.reverse = statementsBehind [] ss
  pending : r.pending.reverse = s.text
  line : r.line = lineBehind (ss ++ [s])

namespace Tracks

variable {r : Reader} {ss : List Stretch} {s : Stretch} {n : Nat} {c : Char}

theorem start : Tracks start [] [] := ⟨rfl, rfl, rfl⟩

/-- No statement is under way as long as the stretch is blank. -/
theorem isIdle_iff (h : r.Tracks ss s) : r.isIdle = true ↔ s.opening? = none := by
  rw [← Stretch.isBlankText_text, ← h.pending]
  show Text.isBlankText r.pending = true ↔ r.pending.reverse.all isBlank = true
  rw [List.all_reverse]
  exact Iff.rfl

/-- A character that is pushed ends the stretch. -/
theorem pending_concat (h : r.Tracks ss s) (n : Nat) (c : Char) :
    (c :: r.pending).reverse = Stretch.text (s ++ [⟨n, c⟩]) := by
  show (c :: r.pending).reverse = List.map Located.char (s ++ [⟨n, c⟩])
  rw [List.reverse_cons, h.pending, List.map_append]
  rfl

/-- A character that leaves the line as it is: a blank, a quote, or one that opens nothing. -/
theorem keep (h : r.Tracks ss s)
    (hline : (s ++ [⟨n, c⟩] : Stretch).plainOpening? = s.plainOpening?) :
    Tracks { r with pending := c :: r.pending } ss (s ++ [⟨n, c⟩]) where
  finished := h.finished
  pending := h.pending_concat n c
  line := by
    show r.line = lineBehind (ss ++ [s ++ [⟨n, c⟩]])
    rw [h.line, lineBehind_concat, lineBehind_concat, hline]

/-- A character that opens the stretch. -/
theorem begin (h : r.Tracks ss s)
    (hline : (s ++ [⟨n, c⟩] : Stretch).plainOpening? = some ⟨n, c⟩) :
    Tracks { r with pending := c :: r.pending, line := n } ss (s ++ [⟨n, c⟩]) where
  finished := h.finished
  pending := h.pending_concat n c
  line := by
    show n = lineBehind (ss ++ [s ++ [⟨n, c⟩]])
    rw [lineBehind_concat, hline]
    rfl

/-- A blank leaves the line of the statement as it is. -/
theorem blank (h : r.Tracks ss s) (hc : isBlank c = true) :
    Tracks { r with pending := c :: r.pending } ss (s ++ [⟨n, c⟩]) :=
  h.keep (Stretch.plainOpening?_congr (Stretch.opening?_concat_of_isBlank hc))

theorem quote (h : r.Tracks ss s) :
    Tracks { r with pending := '"' :: r.pending } ss (s ++ [⟨n, '"'⟩]) := by
  apply h.keep
  by_cases hidle : s.opening? = none
  · -- the quote opens the stretch, but not as far as the line is concerned
    have hblank : isBlank '"' = false := by decide
    rw [Stretch.plainOpening?_of_char_eq (Stretch.opening?_concat_of_eq_none hidle hblank) rfl,
      Stretch.plainOpening?, hidle]
    rfl
  · exact Stretch.plainOpening?_congr (Stretch.opening?_concat_of_ne_none hidle)

/-- A character that is no sign begins a statement, if none is under way. -/
theorem push (h : r.Tracks ss s) (hc : c ≠ '"') : (r.push n c).Tracks ss (s ++ [⟨n, c⟩]) := by
  by_cases hidle : s.opening? = none
  · rcases hblank : isBlank c with - | -
    · have hpush : r.push n c = { r with pending := c :: r.pending, line := n } := by
        rw [Reader.push, h.isIdle_iff.2 hidle, hblank]
        rfl
      rw [hpush]
      exact h.begin
        (Stretch.plainOpening?_of_char_ne (Stretch.opening?_concat_of_eq_none hidle hblank) hc)
    · have hpush : r.push n c = { r with pending := c :: r.pending } := by
        rw [Reader.push, hblank, Bool.not_true, Bool.and_false]
        rfl
      rw [hpush]
      exact h.blank hblank
  · have hpush : r.push n c = { r with pending := c :: r.pending } := by
      rw [Reader.push, Bool.eq_false_iff.2 (mt h.isIdle_iff.1 hidle)]
      rfl
    rw [hpush]
    exact h.keep (Stretch.plainOpening?_congr (Stretch.opening?_concat_of_ne_none hidle))

/-- A semicolon ends the stretch. -/
theorem finish (h : r.Tracks ss s) : r.finish.Tracks (ss ++ [s]) [] where
  finished := by
    show (if r.isIdle then r.finished else ⟨r.line, r.pending.reverse⟩ :: r.finished).reverse = _
    rw [statementsBehind_append, ← h.finished, List.nil_append]
    by_cases hidle : s.opening? = none
    · rw [if_pos (h.isIdle_iff.2 hidle)]
      simp [statementsBehind, hidle]
    · rw [if_neg (mt h.isIdle_iff.1 hidle), List.reverse_cons, h.pending, h.line]
      simp [statementsBehind, hidle]
  pending := rfl
  line := by
    show r.line = lineBehind (ss ++ [s] ++ [[]])
    rw [lineBehind_concat, ← h.line]
    rfl

/-- The characters of a line, and its end. -/
theorem readChars {quoted : Bool} (h : r.Tracks ss s) (t : Text) :
    Tracks { readChars n quoted r t with pending := ' ' :: (readChars n quoted r t).pending }
      (ss ++ (Stretch.ofLine n quoted s t).1) (Stretch.ofLine n quoted s t).2 := by
  induction t generalizing quoted r ss s with
  | nil =>
    rw [Stretch.ofLine, List.append_nil]
    exact h.blank (by decide)
  | cons c t ih =>
    rw [Reader.readChars, Stretch.ofLine]
    by_cases hquote : c = '"'
    · subst hquote
      exact ih h.quote
    · rw [if_neg hquote, if_neg hquote]
      split
      · rw [List.append_nil]
        exact h.blank (by decide)
      · split
        · have hrest := @ih _ _ _ quoted h.finish
          rwa [List.append_assoc] at hrest
        · exact ih (h.push hquote)

/-- All lines, from any line on. -/
theorem foldl_readLine (h : r.Tracks ss s) (lines : List (Text × Nat)) :
    (lines.foldl (fun r (line, n) => r.readLine n line) r).finish.finished.reverse
      = statementsBehind [] (ss ++ Stretch.ofLines s lines) := by
  induction lines generalizing r ss s with
  | nil => exact h.finish.finished
  | cons numbered lines ih =>
    obtain ⟨line, n⟩ := numbered
    rw [List.foldl_cons, Stretch.ofLines]
    by_cases hdirective : s.opening? = none ∧ (Text.skipBlanks line).head? = some '#'
    · have hskip : r.readLine n line = r := by
        unfold readLine
        rw [if_pos]
        simpa [h.isIdle_iff] using hdirective
      rw [if_pos hdirective]
      show (lines.foldl _ (r.readLine n line)).finish.finished.reverse = _
      rw [hskip]
      exact ih h
    · have hread : r.readLine n line = { Reader.readChars n false r line with
          pending := ' ' :: (Reader.readChars n false r line).pending } := by
        unfold readLine
        rw [if_neg]
        simpa [h.isIdle_iff] using hdirective
      rw [if_neg hdirective, ← List.append_assoc]
      show (lines.foldl _ (r.readLine n line)).finish.finished.reverse = _
      rw [hread]
      exact ih (h.readChars line)

end Tracks

end Reader

/-- The statements of a dictionary are its stretches that are not blank. -/
theorem statements_eq (t : Text) : statements t = statementsBehind [] (stretches t) :=
  Reader.Tracks.start.foldl_readLine ((Text.lines t).zipIdx 1)

/-! ### Errors -/

/-- A name that cannot be defined is an empty word, or has a formula that cannot be read. -/
theorem Definitions.line?_of_define {line n : Nat} {formula : Text}
    {rule : Except FormulaError Rule} {d : Definitions} {name : Name} {e : LoadError}
    (h : d.define line formula rule name = .error e) (hn : e.line? = some n) : n = line := by
  unfold Definitions.define at h
  split at h
  · cases h
  · cases h
  · cases h
    exact (Option.some.inj hn).symm
  · split at h
    · cases h
    · cases h
      cases hn

/-- A reference that is not defined is blamed on the line it was given. -/
theorem line?_of_expandAbbreviations {table : Abbreviations} {line n : Nat} {t : Text}
    {e : LoadError} (h : expandAbbreviations table line t = .error e) (hn : e.line? = some n) :
    n = line := by
  fun_induction expandAbbreviations table line t with
  | case1 => cases h
  | case2 _ _ _ _ _ _ _ ih => exact ih (map_eq_error.1 h)
  | case3 =>
    cases h
    exact (Option.some.inj hn).symm
  | case4 _ _ ih => exact ih (map_eq_error.1 h)
  | case5 _ _ _ ih => exact ih (map_eq_error.1 h)

/-- The line of an error is that of the statement. -/
theorem Definitions.line?_of_load {d : Definitions} {s : Statement} {e : LoadError} {n : Nat}
    (h : d.load s = .error e) (hn : e.line? = some n) : n = s.line := by
  unfold Definitions.load at h
  split at h
  · cases h
    exact (Option.some.inj hn).symm
  · rcases bind_eq_error.1 h with hexpand | ⟨formula, -, hdefine⟩
    · exact line?_of_expandAbbreviations hexpand hn
    · obtain ⟨name, -, d', hname⟩ := exists_step_eq_error hdefine
      exact Definitions.line?_of_define hname hn

/-- The first stretch that cannot be loaded, and what was loaded before it. -/
theorem exists_stretch_of_foldlM_load {ss base : List Stretch} {d : Definitions} {e : LoadError}
    (h : (statementsBehind base ss).foldlM Definitions.load d = .error e) :
    ∃ before s after d', ss = before ++ s :: after ∧
      (statementsBehind base before).foldlM Definitions.load d = .ok d' ∧ s.opening? ≠ none ∧
      d'.load ⟨lineBehind (base ++ before ++ [s]), s.text⟩ = .error e := by
  induction ss generalizing base d with
  | nil => cases h
  | cons s ss ih =>
    have hcons (ss : List Stretch) : statementsBehind base (s :: ss) =
      (if s.opening? = none then [] else [⟨lineBehind (base ++ [s]), s.text⟩]) ++
        statementsBehind (base ++ [s]) ss := rfl
    rw [hcons] at h
    by_cases hidle : s.opening? = none
    · rw [if_pos hidle, List.nil_append] at h
      obtain ⟨before, s', after, d', rfl, hbefore, hopens, hload⟩ := ih h
      refine ⟨s :: before, s', after, d', rfl, ?_, hopens, ?_⟩
      · rw [hcons, if_pos hidle, List.nil_append]
        exact hbefore
      · simpa using hload
    · rw [if_neg hidle, List.singleton_append, List.foldlM_cons] at h
      rcases hfirst : d.load ⟨lineBehind (base ++ [s]), s.text⟩ with e' | d₁ <;> rw [hfirst] at h
      · cases h
        exact ⟨[], s, ss, d, rfl, rfl, hidle, by simpa using hfirst⟩
      · obtain ⟨before, s', after, d', rfl, hbefore, hopens, hload⟩ := ih h
        refine ⟨s :: before, s', after, d', rfl, ?_, hopens, ?_⟩
        · rw [hcons, if_neg hidle, List.singleton_append, List.foldlM_cons, hfirst]
          exact hbefore
        · simpa using hload

/-- The stretch `s` of the text is refused with `e`, which names line `n`; the stretches `before`
it were loaded. -/
structure Refused (t : Text) (e : LoadError) (n : Nat) (before : List Stretch) (s : Stretch) :
    Prop where
  line : e.line? = some n
  split : ∃ after, stretches t = before ++ s :: after
  load : ∃ d, (statementsBehind [] before).foldlM Definitions.load .empty = .ok d ∧
    d.load ⟨n, s.text⟩ = .error e

/-- **The line of an error.**  If a dictionary is refused with an error that names a line, the
error is that of the first stretch which cannot be loaded, and the line is that of the character
that opens the stretch, if this is no quote.  If it is, the line is that on which the latest
stretch before it opens that does not open with a quote. -/
theorem line_of_refused {t : Text} {e : LoadError} {n : Nat}
    (h : Lexicon.ofDictionary t = .error e) (hn : e.line? = some n) :
    ∃ before s o, Refused t e n before s ∧ s.opening? = some o ∧
      (o.char ≠ '"' → n = o.line) ∧ (o.char = '"' → n = lineBehind before) := by
  have hload := map_eq_error.1 h
  rw [statements_eq] at hload
  obtain ⟨before, s, after, d, hsplit, hbefore, hopens, hfails⟩ :=
    exists_stretch_of_foldlM_load hload
  obtain rfl := Definitions.line?_of_load hfails hn
  obtain ⟨o, ho⟩ := Option.ne_none_iff_exists'.1 hopens
  refine ⟨before, s, o, ⟨hn, ⟨after, hsplit⟩, d, hbefore, hfails⟩, ho, fun hplain => ?_,
    fun hquote => ?_⟩
  · show lineBehind (before ++ [s]) = o.line
    rw [lineBehind_concat, Stretch.plainOpening?_of_char_ne ho hplain]
    rfl
  · show lineBehind (before ++ [s]) = lineBehind before
    rw [lineBehind_concat, Stretch.plainOpening?_of_char_eq ho hquote]
    rfl

/-- The second entry has no colon and takes two lines. -/
def misprintText : Text := "#define nouns\na: D+; % an article\n\n  cat\nD- & S+;".toList

/-- The entry without its colon begins on the fourth line. -/
def misprint : LoadError := .missingColon 4 "cat D- & S+".toList

theorem ofDictionary_misprint : Lexicon.ofDictionary misprintText = .error misprint := by
  cbv

theorem line_of_refused_misprint :
    (Lexicon.ofDictionary misprintText = .error misprint ∧ misprint.line? = some 4) ∧
      ∃ before s o, Refused misprintText misprint 4 before s ∧ s.opening? = some o ∧
        (o.char ≠ '"' → 4 = o.line) ∧ (o.char = '"' → 4 = lineBehind before) :=
  ⟨⟨ofDictionary_misprint, rfl⟩, line_of_refused ofDictionary_misprint rfl⟩

/-- The entry without a colon begins with a quote. -/
def quotedText : Text := "a: D+;\n\"b\" X-;".toList

/-- A statement on the first line. -/
def articleStretch : Stretch := "a: D+".toList.map (Located.mk 1)

/-- The end of the first line, and a statement on the second whose word is quoted. -/
def quotedStretch : Stretch := ⟨1, ' '⟩ :: "\"b\" X-".toList.map (Located.mk 2)

theorem stretches_quoted : stretches quotedText = [articleStretch, quotedStretch, [⟨2, ' '⟩]] := by
  decide

theorem isOk_load_article :
    ∃ d, (statementsBehind [] [articleStretch]).foldlM Definitions.load .empty = .ok d := by
  rcases h : (statementsBehind [] [articleStretch]).foldlM Definitions.load .empty with e | d
  · have hok :
        ((statementsBehind [] [articleStretch]).foldlM Definitions.load .empty).isOk = true := by
      cbv
    rw [h] at hok
    cases hok
  · exact ⟨d, rfl⟩

/-- A statement that opens with a quote is reported on the line of the statement before it. -/
theorem line_of_quoted :
    let e := LoadError.missingColon 1 "\"b\" X-".toList
    Lexicon.ofDictionary quotedText = .error e ∧
      Refused quotedText e 1 [articleStretch] quotedStretch ∧
      quotedStretch.opening? = some ⟨2, '"'⟩ := by
  intro e
  obtain ⟨d, hd⟩ := isOk_load_article
  exact ⟨by cbv, ⟨rfl, ⟨_, stretches_quoted⟩, d, hd, rfl⟩, rfl⟩

end Dictionary

end LinkGrammar
