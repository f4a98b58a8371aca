/-
LinkGrammar/Proofs/Dictionary/Entries.lean

Entries written as dictionary text.

An entry is a word with a formula.  Its line

    "word": formula;

has the word between quotes, where no sign of the dictionary language means anything.  The text
is read three times over: by the reader of lines, which cuts off statements; by the search for
the colon; and by the search for names.  Each keeps its own count of quotes, so each has its own
lemma that it takes the word as a whole.

Main statement: a text of such lines is read as the lexicon into which the entries are put one
after the other (`ofDictionary_entryText`).
-/
import Mathlib
import LinkGrammar.Dictionary.Load
import LinkGrammar.Proofs.Link.Answer
import LinkGrammar.Proofs.Text.Pieces
import LinkGrammar.Proofs.Text.Trim

namespace LinkGrammar

namespace Dictionary

/-! ### Entries as text -/

/-- An entry as a statement. -/
def entryStatement (word formula : Text) : Text := '"' :: word ++ '"' :: ':' :: ' ' :: formula

/-- An entry on a line of its own. -/
def entryLine (word formula : Text) : Text := entryStatement word formula ++ [';']

/-- Entries, each on a line of its own. -/
def entryText : List (Text × Text) → Text
  | [] => []
  | (word, formula) :: entries => entryLine word formula ++ '\n' :: entryText entries

/-- Nowhere in the text is there a reference, which is a name between angle brackets. -/
def ReferenceFree (t : Text) : Prop :=
  ∀ before name after, t = before ++ '<' :: (name ++ '>' :: after) →
    name = [] ∨ ∃ c ∈ name, c = '<' ∨ c = '>' ∨ isBlank c = true

/-- The entry can be written on a line: a word without quotes and line feeds, and a formula
without references and without the signs that are not taken for text outside quotes. -/
structure Writable (word formula : Text) : Prop where
  word_ne_nil : word ≠ []
  word_plain : ∀ c ∈ word, c ≠ '"' ∧ c ≠ '\n'
  formula_plain : ∀ c ∈ formula, c ≠ '"' ∧ c ≠ '\n' ∧ c ≠ '%' ∧ c ≠ ';'
  formula_trimmed : formula.Trimmed
  formula_referenceFree : ReferenceFree formula

variable {word formula : Text}

/-! ### Lines -/

theorem Writable.newline_not_mem (h : Writable word formula) :
    '\n' ∉ entryLine word formula := by
  intro hmem
  simp only [entryLine, entryStatement, List.cons_append, List.mem_append, List.mem_cons,
    List.append_assoc, List.not_mem_nil, or_false] at hmem
  rcases hmem with hmem | hmem | hmem | hmem | hmem | hmem | hmem
  · exact absurd hmem (by decide)
  · exact (h.word_plain _ hmem).2 rfl
  · exact absurd hmem (by decide)
  · exact absurd hmem (by decide)
  · exact absurd hmem (by decide)
  · exact (h.formula_plain _ hmem).2.1 rfl
  · exact absurd hmem (by decide)

theorem getLast?_entryLine (word formula : Text) :
    (entryLine word formula).getLast? ≠ some '\r' := by
  unfold entryLine
  rw [List.getLast?_concat]
  decide

/-- The lines of the text are those of its entries. -/
theorem lines_entryText {entries : List (Text × Text)}
    (h : ∀ e ∈ entries, Writable e.1 e.2) :
    Text.lines (entryText entries) = entries.map fun e => entryLine e.1 e.2 := by
  induction entries with
  | nil => rfl
  | cons e entries ih =>
    obtain ⟨he, hentries⟩ := List.forall_mem_cons.1 h
    rw [entryText, Text.lines_append he.newline_not_mem (getLast?_entryLine _ _), ih hentries]
    rfl

/-- The same without the last line feed. -/
theorem lines_dropLast_entryText {entries : List (Text × Text)}
    (h : ∀ e ∈ entries, Writable e.1 e.2) :
    Text.lines (entryText entries).dropLast = entries.map fun e => entryLine e.1 e.2 := by
  induction entries with
  | nil => rfl
  | cons e entries ih =>
    obtain ⟨he, hentries⟩ := List.forall_mem_cons.1 h
    rcases entries with - | ⟨e', entries⟩
    · have hdrop : (entryText [e]).dropLast = entryLine e.1 e.2 := List.dropLast_concat
      rw [hdrop, Text.lines_of_not_mem (by simp [entryLine]) he.newline_not_mem]
      rfl
    · have hne : entryText (e' :: entries) ≠ [] := by simp [entryText, entryLine]
      have hdrop : (entryText (e :: e' :: entries)).dropLast
          = entryLine e.1 e.2 ++ '\n' :: (entryText (e' :: entries)).dropLast := by
        rw [entryText, List.dropLast_append_of_ne_nil (List.cons_ne_nil _ _),
          List.dropLast_cons_of_ne_nil hne]
      rw [hdrop, Text.lines_append he.newline_not_mem (getLast?_entryLine _ _), ih hentries]
      rfl

/-! ### Statements -/

/-- The statement is that of the entry, perhaps with blanks in front. -/
def Statement.Gives (s : Statement) (word formula : Text) : Prop :=
  ∃ blanks, (∀ c ∈ blanks, isBlank c = true) ∧ s.text = blanks ++ entryStatement word formula

namespace Reader

variable {number : Nat} {quoted : Bool} {r : Reader}

/-- Characters that are no signs are taken as they are. -/
theorem readChars_append (number : Nat) {t : Text}
    (h : ∀ c ∈ t, c ≠ '"' ∧ (quoted = true ∨ c ≠ '%' ∧ c ≠ ';')) (r : Reader) (rest : Text) :
    ∃ line, readChars number quoted r (t ++ rest)
      = readChars number quoted ⟨r.finished, t.reverse ++ r.pending, line⟩ rest := by
  induction t generalizing r with
  | nil => exact ⟨r.line, rfl⟩
  | cons c t ih =>
    obtain ⟨⟨hquote, hsign⟩, ht⟩ := List.forall_mem_cons.1 h
    obtain ⟨line, hline⟩ := ih ht (r.push number c)
    have hcomment : ¬(decide (c = '%') && !quoted) = true := by
      rcases hsign with rfl | ⟨hcomment, -⟩
      · simp
      · simp [hcomment]
    have hend : ¬(decide (c = ';') && !quoted) = true := by
      rcases hsign with rfl | ⟨-, hend⟩
      · simp
      · simp [hend]
    refine ⟨line, ?_⟩
    rw [List.cons_append, readChars, if_neg hquote, if_neg hcomment, if_neg hend, hline,
      List.reverse_cons, List.append_assoc]
    rfl

/-- A quote is kept, and opens or closes. -/
theorem readChars_quote (r : Reader) (rest : Text) :
    readChars number quoted r ('"' :: rest)
      = readChars number (!quoted) ⟨r.finished, '"' :: r.pending, r.line⟩ rest := by
  rw [readChars, if_pos rfl]

theorem readChars_end (r : Reader) : readChars number false r [';'] = r.finish := rfl

/-- The quotes keep the signs in the word from being taken for signs. -/
theorem readChars_entryLine (number : Nat) (h : Writable word formula) (r : Reader) :
    ∃ line, readChars number false r (entryLine word formula)
      = finish ⟨r.finished, (entryStatement word formula).reverse ++ r.pending, line⟩ := by
  have hword : ∀ c ∈ word, c ≠ '"' ∧ (true = true ∨ c ≠ '%' ∧ c ≠ ';') :=
    fun c hc => ⟨(h.word_plain c hc).1, .inl rfl⟩
  have hformula : ∀ c ∈ ':' :: ' ' :: formula, c ≠ '"' ∧ (false = true ∨ c ≠ '%' ∧ c ≠ ';') := by
    simp only [List.forall_mem_cons]
    refine ⟨by decide, by decide, fun c hc => ?_⟩
    obtain ⟨hquote, -, hsign⟩ := h.formula_plain c hc
    exact ⟨hquote, .inr hsign⟩
  obtain ⟨line₁, hline₁⟩ := readChars_append number hword
    ⟨r.finished, '"' :: r.pending, r.line⟩ ('"' :: ((':' :: ' ' :: formula) ++ [';']))
  obtain ⟨line₂, hline₂⟩ := readChars_append number hformula
    ⟨r.finished, '"' :: (word.reverse ++ '"' :: r.pending), line₁⟩ [';']
  refine ⟨line₂, ?_⟩
  calc readChars number false r (entryLine word formula)
      = readChars number false r
          ('"' :: (word ++ '"' :: ((':' :: ' ' :: formula) ++ [';']))) := by
        simp [entryLine, entryStatement]
    _ = finish ⟨r.finished, (':' :: ' ' :: formula).reverse ++
          '"' :: (word.reverse ++ '"' :: r.pending), line₂⟩ := by
        rw [readChars_quote, Bool.not_false, hline₁, readChars_quote, Bool.not_true, hline₂,
          readChars_end]
    _ = _ := by simp [entryStatement]

/-- With no statement under way nothing is added. -/
theorem finish_of_isIdle (h : r.isIdle = true) : r.finish.finished = r.finished := by
  unfold finish
  exact if_pos h

/-- Between statements the line of an entry is read as its statement. -/
theorem readLine_entryLine (h : Writable word formula) (hidle : r.isIdle = true) (number : Nat) :
    (r.readLine number (entryLine word formula)).isIdle = true ∧
      ∃ s : Statement, s.Gives word formula ∧
        (r.readLine number (entryLine word formula)).finished = s :: r.finished := by
  obtain ⟨line, hline⟩ := readChars_entryLine number h r
  have hdirective : ¬(r.isIdle && decide
      ((Text.skipBlanks (entryLine word formula)).head? = some '#')) = true := by
    -- the first character is a quote
    have hskip : Text.skipBlanks (entryLine word formula) = entryLine word formula :=
      Text.dropWhile_eq_self fun c hc => by
        cases hc
        decide
    rw [hskip, hidle]
    simp [entryLine, entryStatement]
  have hbusy : ¬(Reader.mk r.finished ((entryStatement word formula).reverse ++ r.pending)
      line).isIdle = true := by
    intro hblank
    have := List.all_eq_true.1 hblank '"' (by simp [entryStatement])
    exact absurd this (by decide)
  unfold readLine
  rw [if_neg hdirective]
  dsimp only
  rw [hline]
  refine ⟨rfl, ⟨line, r.pending.reverse ++ entryStatement word formula⟩,
    ⟨r.pending.reverse, ?_, rfl⟩, ?_⟩
  · intro c hc
    exact List.all_eq_true.1 hidle c (List.mem_reverse.1 hc)
  · unfold finish
    rw [if_neg hbusy]
    simp

/-- Lines of entries are read as their statements. -/
theorem foldl_readLine_entries {entries : List (Text × Text)}
    (h : ∀ e ∈ entries, Writable e.1 e.2) (hidle : r.isIdle = true) (number : Nat) :
    let r' := ((entries.map fun e => entryLine e.1 e.2).zipIdx number).foldl
      (fun r (line, number) => r.readLine number line) r
    r'.isIdle = true ∧ ∃ ss : List Statement,
      List.Forall₂ (fun s e => s.Gives e.1 e.2) ss entries ∧
        r'.finished = ss.reverse ++ r.finished := by
  induction entries generalizing r number with
  | nil => exact ⟨hidle, [], .nil, rfl⟩
  | cons e entries ih =>
    obtain ⟨he, hentries⟩ := List.forall_mem_cons.1 h
    obtain ⟨hidle', s, hs, hfinished⟩ := readLine_entryLine he hidle number
    obtain ⟨hidle'', ss, hss, hall⟩ := ih hentries hidle' (number + 1)
    refine ⟨hidle'', s :: ss, .cons hs hss, ?_⟩
    rw [List.reverse_cons, List.append_assoc, List.singleton_append, ← hfinished]
    exact hall

end Reader

/-- Lines of entries give one statement each. -/
theorem statements_of_lines {entries : List (Text × Text)} {t : Text}
    (h : ∀ e ∈ entries, Writable e.1 e.2)
    (ht : Text.lines t = entries.map fun e => entryLine e.1 e.2) :
    List.Forall₂ (fun s e => s.Gives e.1 e.2) (statements t) entries := by
  obtain ⟨hidle, ss, hss, hfinished⟩ :=
    Reader.foldl_readLine_entries (r := Reader.start) h rfl 1
  have hstatements : statements t = ss := by
    unfold statements
    dsimp only
    rw [ht, Reader.finish_of_isIdle hidle, hfinished]
    exact (congrArg _ (List.append_nil _)).trans (List.reverse_reverse ss)
  rw [hstatements]
  exact hss

/-! ### The two sides of a statement -/

/-- Up to a colon outside quotes everything belongs to the names. -/
theorem splitColon?_append {quoted : Bool} {s : Text}
    (h : ∀ c ∈ s, c ≠ '"' ∧ (quoted = true ∨ c ≠ ':')) (t : Text) :
    splitColon? quoted (s ++ t)
      = (splitColon? quoted t).map fun (left, right) => (s ++ left, right) := by
  induction s with
  | nil => simp
  | cons c s ih =>
    obtain ⟨⟨hquote, hcolon⟩, hs⟩ := List.forall_mem_cons.1 h
    have hstop : ¬(decide (c = ':') && !quoted) = true := by
      rcases hcolon with rfl | hcolon
      · simp
      · simp [hcolon]
    rw [List.cons_append, splitColon?, if_neg hstop, if_neg hquote, ih hs, Option.map_map]
    rfl

/-- A quote opens or closes for the colon too. -/
theorem splitColon?_quote (quoted : Bool) (t : Text) :
    splitColon? quoted ('"' :: t)
      = (splitColon? (!quoted) t).map fun (left, right) => ('"' :: left, right) := by
  rw [splitColon?, if_neg (by simp), if_pos rfl]

/-- The colon of an entry is the one behind the quoted word. -/
theorem splitColon?_gives (h : Writable word formula) {blanks : Text}
    (hblanks : ∀ c ∈ blanks, isBlank c = true) :
    splitColon? false (blanks ++ entryStatement word formula)
      = some (blanks ++ '"' :: word ++ ['"'], ' ' :: formula) := by
  have hfront : ∀ c ∈ blanks, c ≠ '"' ∧ (false = true ∨ c ≠ ':') := by
    intro c hc
    have hblank := hblanks c hc
    constructor
    · rintro rfl
      exact absurd hblank (by decide)
    · right
      rintro rfl
      exact absurd hblank (by decide)
  have hword : ∀ c ∈ word, c ≠ '"' ∧ (true = true ∨ c ≠ ':') :=
    fun c hc => ⟨(h.word_plain c hc).1, .inl rfl⟩
  have hcolon : splitColon? false (':' :: ' ' :: formula) = some ([], ' ' :: formula) := rfl
  unfold entryStatement
  rw [splitColon?_append hfront, List.cons_append, splitColon?_quote, Bool.not_false,
    splitColon?_append hword, splitColon?_quote, Bool.not_true, hcolon]
  simp

/-! ### Names -/

/-- A quoted word is one name. -/
theorem nameTokens_gives (h : ∀ c ∈ word, c ≠ '"') {blanks : Text}
    (hblanks : ∀ c ∈ blanks, isBlank c = true) :
    nameTokens (blanks ++ '"' :: word ++ ['"']) = ['"' :: word ++ ['"']] := by
  induction blanks with
  | nil =>
    have hskip : ∀ c ∈ word, decide (c ≠ '"') = true := fun c hc => by simpa using h c hc
    have htake : (word ++ ['"']).takeWhile (· ≠ '"') = word := by
      rw [List.takeWhile_append_of_pos hskip, List.takeWhile_cons_of_neg (by simp),
        List.append_nil]
    have hdrop : (word ++ ['"']).dropWhile (· ≠ '"') = ['"'] := by
      rw [List.dropWhile_append_of_pos hskip, List.dropWhile_cons_of_neg (by simp)]
    rw [List.nil_append, List.cons_append, nameTokens, if_neg (by decide), if_pos (by simp),
      htake, hdrop, List.tail_cons, nameTokens]
    rfl
  | cons c blanks ih =>
    obtain ⟨hc, hblanks⟩ := List.forall_mem_cons.1 hblanks
    rw [List.cons_append, List.cons_append, nameTokens, if_pos hc, ih hblanks]

/-- Between quotes angle brackets and slashes are part of a word. -/
theorem ofToken_quoted (hne : word ≠ []) (h : ∀ c ∈ word, c ≠ '"') :
    Name.ofToken ('"' :: word ++ ['"']) = .word word := by
  have hfront : ('"' :: word ++ ['"']).dropWhile (· = '"') = word ++ ['"'] := by
    rw [List.cons_append, List.dropWhile_cons_of_pos (by simp)]
    apply Text.dropWhile_eq_self
    intro c hc
    rw [List.head?_append_of_ne_nil _ hne] at hc
    simpa using h c (List.mem_of_mem_head? hc)
  have hback : Text.trimEndMarks ['"'] (word ++ ['"']) = word := by
    unfold Text.trimEndMarks
    rw [List.reverse_concat, List.dropWhile_cons_of_pos (by simp), Text.dropWhile_eq_self,
      List.reverse_reverse]
    intro c hc
    rw [List.head?_reverse] at hc
    simpa using h c (List.mem_of_mem_getLast? hc)
  unfold Name.ofToken
  rw [if_neg (by simp), if_neg (by simp), hfront, hback]

/-! ### Formulas without references -/

theorem eq_append_of_reference? {t name rest : Text} (h : reference? t = some (name, rest)) :
    t = name ++ '>' :: rest ∧ name ≠ [] ∧
      ∀ c ∈ name, c ≠ '<' ∧ c ≠ '>' ∧ isBlank c = false := by
  unfold reference? at h
  dsimp only at h
  split at h
  · next c run rest' htake hdrop =>
    cases h
    refine ⟨?_, List.cons_ne_nil _ _, fun d hd => ?_⟩
    · rw [← htake, ← hdrop, List.takeWhile_append_dropWhile]
    · rw [← htake] at hd
      simpa [and_assoc] using List.mem_takeWhile_imp hd
  · cases h

/-- What follows a character has no reference either. -/
theorem ReferenceFree.tail {c : Char} {t : Text} (h : ReferenceFree (c :: t)) :
    ReferenceFree t := by
  rintro before name after rfl
  exact h (c :: before) name after rfl

/-- Where no reference follows, nothing is replaced. -/
theorem expandAbbreviations_of_referenceFree (table : Abbreviations) (line : Nat) {t : Text}
    (h : ReferenceFree t) : expandAbbreviations table line t = .ok t := by
  induction t with
  | nil => rw [expandAbbreviations]
  | cons c t ih =>
    have htail := ih h.tail
    rw [expandAbbreviations]
    split
    · next hc =>
      subst hc
      split
      · next name rest href =>
        -- such a name would be a reference
        obtain ⟨rfl, hne, hname⟩ := eq_append_of_reference? href
        exfalso
        rcases h [] name rest rfl with hnil | ⟨c, hc, hbad⟩
        · exact hne hnil
        · obtain ⟨hopen, hclose, hblank⟩ := hname c hc
          rcases hbad with rfl | rfl | hbad
          · exact hopen rfl
          · exact hclose rfl
          · rw [hblank] at hbad
            cases hbad
      · rw [htail]
        rfl
    · rw [htail]
      rfl

/-- Without an opening bracket there is no reference. -/
theorem referenceFree_of_not_mem {t : Text} (h : '<' ∉ t) : ReferenceFree t := by
  rintro before name after rfl
  exact absurd (by simp) h

/-! ### Loading -/

namespace Definitions

/-- The statement of an entry puts the entry into the lexicon. -/
theorem load_of_gives {s : Statement} (hs : s.Gives word formula) (h : Writable word formula)
    {rule : Rule} (hrule : Rule.ofText formula = .ok rule) (d : Definitions) :
    d.load s = .ok { d with lexicon := d.lexicon.insert word rule } := by
  obtain ⟨blanks, hblanks, htext⟩ := hs
  have hquote : ∀ c ∈ word, c ≠ '"' := fun c hc => (h.word_plain c hc).1
  have htrim : Text.trim (' ' :: formula) = formula := by
    rw [Text.trim_cons_of_isBlank (by decide), h.formula_trimmed.trim_eq]
  have hdefine : ∀ line, define line formula (.ok rule) d (.word word)
      = .ok { d with lexicon := d.lexicon.insert word rule } := by
    obtain ⟨c, t, rfl⟩ := List.exists_cons_of_ne_nil h.word_ne_nil
    exact fun _ => rfl
  unfold load
  rw [htext, splitColon?_gives h hblanks]
  dsimp only
  rw [htrim, expandAbbreviations_of_referenceFree _ _ h.formula_referenceFree]
  dsimp only [bind, Except.bind]
  rw [nameTokens_gives hquote hblanks, List.map_singleton, ofToken_quoted h.word_ne_nil hquote,
    hrule, List.foldlM_cons, hdefine]
  rfl

/-- The statements of entries put all of them into the lexicon. -/
theorem foldlM_load_of_gives {ss : List Statement} {entries : List (Text × Text)}
    (hss : List.Forall₂ (fun s e => s.Gives e.1 e.2) ss entries)
    (h : ∀ e ∈ entries, Writable e.1 e.2) {d : Definitions} {l : Lexicon}
    (hl : entries.foldlM (fun l e => l.insertFormula e.1 e.2) d.lexicon = .ok l) :
    ss.foldlM load d = .ok { d with lexicon := l } := by
  induction hss generalizing d with
  | nil =>
    cases hl
    rfl
  | @cons s e ss entries hs _ ih =>
    obtain ⟨he, hentries⟩ := List.forall_mem_cons.1 h
    rw [List.foldlM_cons] at hl
    obtain ⟨l', hinsert, hl⟩ := bind_eq_ok.1 hl
    obtain ⟨rule, hrule, rfl⟩ := map_eq_ok.1 hinsert
    rw [List.foldlM_cons, load_of_gives hs he hrule]
    exact ih hentries (d := { d with lexicon := d.lexicon.insert e.1 rule }) hl

end Definitions

/-- Entries whose formulas state rules can be put into a lexicon. -/
theorem exists_foldlM_insertFormula {entries : List (Text × Text)}
    (h : ∀ e ∈ entries, ∃ rule, Rule.ofText e.2 = .ok rule) (l : Lexicon) :
    ∃ l', entries.foldlM (fun l e => l.insertFormula e.1 e.2) l = .ok l' :=
  (exists_foldlM_eq_ok (fun _ _ => exists_map_eq_ok) entries l).2 h

/-- **Dictionaries of quoted words.**  The text with the line `"word": formula;` for each entry
is read as the lexicon into which the entries are put in their order, so both have the same words
with the same rules and tags.  Quotes take all signs into the word.  It does not matter whether
the last line ends with a line feed. -/
theorem ofDictionary_entryText {entries : List (Text × Text)}
    (h : ∀ e ∈ entries, Writable e.1 e.2 ∧ ∃ rule, Rule.ofText e.2 = .ok rule) :
    ∃ l, entries.foldlM (fun l e => l.insertFormula e.1 e.2) Lexicon.empty = .ok l ∧
      Lexicon.ofDictionary (entryText entries) = .ok l ∧
      Lexicon.ofDictionary (entryText entries).dropLast = .ok l := by
  have hwritable : ∀ e ∈ entries, Writable e.1 e.2 := fun e he => (h e he).1
  obtain ⟨l, hinsert⟩ := exists_foldlM_insertFormula (fun e he => (h e he).2) .empty
  have hread : ∀ t, Text.lines t = entries.map (fun e => entryLine e.1 e.2) →
      Lexicon.ofDictionary t = .ok l := by
    intro t ht
    unfold Lexicon.ofDictionary
    rw [Definitions.foldlM_load_of_gives (statements_of_lines hwritable ht) hwritable hinsert]
    rfl
  refine ⟨l, hinsert, ?_, ?_⟩
  · exact hread _ (lines_entryText hwritable)
  · exact hread _ (lines_dropLast_entryText hwritable)

/-- Words with signs in them, one with a tag. -/
def signEntries : List (Text × Text) :=
  [(['<', 'a', '%', ';', 'b', '>'], ['D', '+', ' ', 'o', 'r', ' ', '[', 'E', '-', ']']),
   (['/', ':', ' ', '#', '.', 'n'], ['D', '-', ' ', '&', ' ', '>', '+'])]

theorem writable_of_mem_signEntries : ∀ e ∈ signEntries, Writable e.1 e.2 := by
  have key : ∀ e ∈ signEntries, e.1 ≠ [] ∧ (e.1.all fun c => c ≠ '"' && c ≠ '\n') = true ∧
      (e.2.all fun c => c ≠ '"' && c ≠ '\n' && c ≠ '%' && c ≠ ';') = true ∧
      e.2.Trimmed ∧ '<' ∉ e.2 := by
    decide
  intro e he
  obtain ⟨hne, hword, hformula, htrimmed, hreference⟩ := key e he
  exact
    { word_ne_nil := hne
      word_plain := by simpa using hword
      formula_plain := by simpa [and_assoc] using hformula
      formula_trimmed := htrimmed
      formula_referenceFree := referenceFree_of_not_mem hreference }

theorem ofDictionary_signEntries :
    (∀ e ∈ signEntries, Writable e.1 e.2 ∧ ∃ rule, Rule.ofText e.2 = .ok rule) ∧
    entryText signEntries
      = "\"<a%;b>\": D+ or [E-];\n\"/: #.n\": D- & >+;\n".toList ∧
    ∃ l, signEntries.foldlM (fun l e => l.insertFormula e.1 e.2) Lexicon.empty = .ok l ∧
      Lexicon.ofDictionary (entryText signEntries) = .ok l := by
  have hrules : ∀ e ∈ signEntries, ∃ rule, Rule.ofText e.2 = .ok rule := by
    have hall : (signEntries.all fun e => (Rule.ofText e.2).isOk) = true := by cbv
    intro e he
    have hok := List.all_eq_true.1 hall e he
    rcases hrule : Rule.ofText e.2 with error | rule
    · rw [hrule] at hok
      cases hok
    · exact ⟨rule, rfl⟩
  have h : ∀ e ∈ signEntries, Writable e.1 e.2 ∧ ∃ rule, Rule.ofText e.2 = .ok rule :=
    fun e he => ⟨writable_of_mem_signEntries e he, hrules e he⟩
  obtain ⟨l, hinsert, hread, -⟩ := ofDictionary_entryText h
  exact ⟨h, by decide, l, hinsert, hread⟩

end Dictionary

end LinkGrammar
