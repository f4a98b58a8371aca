/-
LinkGrammar/Proofs/Formula/RoundTrip.lean

Writing a formula and reading it back.

The tokens of a rendered formula are orderly, and the walk over them gives the formula:
an operand adds itself to the level it stands on, and the text of a compound formula fills
an empty level with its operands.  So reading gives the formula, too.

Main result: the text of a formula reads back as the formula exactly when the formula
is canonical, and reading gives canonical formulas only.
-/
import LinkGrammar.Formula.Render
import LinkGrammar.Proofs.Formula.Orderly

namespace LinkGrammar.Formula

/-- The text of a formula as an operand. -/
def operandText (f : Formula) : Text :=
  if f.isCompound then '(' :: render f ++ [')'] else render f

theorem renderOperands_eq_map (fs : List Formula) : renderOperands fs = fs.map operandText := by
  induction fs with
  | nil => rw [renderOperands]; rfl
  | cons f fs ih => rw [renderOperands, ih]; rfl

/-! ### The tokens of rendered text -/

theorem lexemes_bracketed (b : Bracket) (t : Text) :
    lexemes (b.opener :: t ++ [b.closer]) = .opening b :: lexemes t ++ [.closing b] := by
  have hseam : Seam t [b.closer] := Seam.of_head (by cases b <;> decide) []
  rw [List.cons_append, lexemes_cons_opener, lexemes_append hseam, lexemes_cons_closer,
    lexemes_nil]
  rfl

theorem lexemes_optional (f : Formula) :
    lexemes (render (optional f)) = .opening .curly :: lexemes (render f) ++ [.closing .curly] := by
  rw [render]
  exact lexemes_bracketed .curly (render f)

theorem lexemes_cost (f : Formula) :
    lexemes (render (cost f)) = .opening .square :: lexemes (render f) ++ [.closing .square] := by
  rw [render]
  exact lexemes_bracketed .square (render f)

/-- An operand that joins operands itself stands in parentheses. -/
theorem lexemes_operandText_of_isCompound {f : Formula} (h : f.isCompound = true) :
    lexemes (operandText f) = .opening .round :: lexemes (render f) ++ [.closing .round] := by
  rw [operandText, if_pos h]
  exact lexemes_bracketed .round (render f)

theorem lexemes_name {n : Text} (h : IsName n) : lexemes n = [.name n] := by
  have hrun := lexemes_run_append h.1 h.2.1 (Seam.nil_right n)
  rwa [List.append_nil, lexemes_nil, Lexeme.ofRun, if_neg h.2.2] at hrun

/-- The sign of an operator between operands. -/
def Joint.sign : Joint → Text
  | .and => andSign
  | .or => orSign

theorem Joint.sign_eq (j : Joint) : j.sign = ' ' :: (j.lexeme.text ++ [' ']) := by
  cases j <;> rfl

/-- An operator between two texts is one token between theirs. -/
theorem lexemes_sign (j : Joint) (s t : Text) :
    lexemes (s ++ j.sign ++ t) = lexemes s ++ j.lexeme :: lexemes t := by
  have hseam : Seam j.lexeme.text (' ' :: t) := Seam.of_head (by decide) t
  have hsign : s ++ j.sign ++ t = s ++ ' ' :: (j.lexeme.text ++ ' ' :: t) := by
    simp [Joint.sign_eq]
  rw [hsign, lexemes_append (Seam.of_head (by decide) _), lexemes_cons_space,
    Joint.lexemes_text_append hseam, lexemes_cons_space]

/-- The text of a tree is that of its operands with the operator between them. -/
theorem render_node (j : Joint) (fs : List Formula) :
    render (j.node fs) = j.sign.intercalate (fs.map operandText) := by
  cases j
  · show render (and fs) = _
    rw [render, renderOperands_eq_map]
    rfl
  · show render (or fs) = _
    rw [render, renderOperands_eq_map]
    rfl

/-! ### Properties of rendered text -/

/-- A property of texts that is kept when the text of a formula is put together. -/
structure Compositional (P : Text → Prop) : Prop where
  name : ∀ n, IsName n → P n
  join : ∀ (j : Joint) s t, P s → P t → P (s ++ j.sign ++ t)
  bracket : ∀ (b : Bracket) s, P s → P (b.opener :: s ++ [b.closer])

namespace Compositional

variable {P : Text → Prop}

/-- What holds of the text of a formula holds of it as an operand. -/
theorem operandText {f : Formula} (h : Compositional P) (hf : P (render f)) :
    P (Formula.operandText f) := by
  unfold Formula.operandText
  split
  · exact h.bracket .round _ hf
  · exact hf

/-- It holds of operands that are joined. -/
theorem node (h : Compositional P) (j : Joint) {fs : List Formula} (hne : fs ≠ [])
    (hfs : ∀ f ∈ fs, P (Formula.operandText f)) : P (render (j.node fs)) := by
  rw [render_node]
  induction fs with
  | nil => exact absurd rfl hne
  | cons f fs ih =>
    obtain ⟨hf, hfs⟩ := List.forall_mem_cons.1 hfs
    rcases fs with - | ⟨g, fs⟩
    · rw [List.map_singleton, List.intercalate_singleton]
      exact hf
    · rw [List.map_cons, List.map_cons, List.intercalate_cons_cons]
      exact h.join j _ _ hf (ih (by simp) hfs)

mutual

/-- It holds of the text of every canonical tree. -/
theorem render (h : Compositional P) : (f : Formula) → Canonical f → P (render f)
  | leaf n, hf => by
    rw [Formula.render]
    exact h.name n hf
  | and fs, hf => by
    refine h.node .and ?_ (h.operands fs hf.2)
    rintro rfl
    exact absurd hf.1 (by simp)
  | or fs, hf => by
    refine h.node .or ?_ (h.operands fs hf.2)
    rintro rfl
    exact absurd hf.1 (by simp)
  | optional f, hf => by
    rw [Formula.render]
    exact h.bracket .curly _ (h.render f hf.1)
  | cost f, hf => by
    rw [Formula.render]
    exact h.bracket .square _ (h.render f hf)

/-- It holds of the texts of all operands. -/
theorem operands (h : Compositional P) : (fs : List Formula) → AllCanonical fs →
    ∀ f ∈ fs, P (Formula.operandText f)
  | [], _ => by simp
  | f :: fs, hfs =>
    List.forall_mem_cons.2 ⟨h.operandText (h.render f hfs.1), h.operands fs hfs.2⟩

end

end Compositional

theorem compositional_orderly :
    Compositional fun t => Orderly (lexemes t) ∧ lexemes t ≠ [] where
  name := by
    intro n hn
    rw [lexemes_name hn]
    exact ⟨⟨List.isChain_singleton _, by simp [Lexeme.startsPart], by simp [Lexeme.endsPart]⟩,
      by simp⟩
  join := by
    rintro j s t ⟨hs, hsne⟩ ⟨ht, htne⟩
    rw [lexemes_sign]
    refine ⟨⟨?_, ?_, ?_⟩, by simp⟩
    · refine List.isChain_append.2 ⟨hs.fits, List.isChain_cons.2 ⟨fun a ha => ?_, ht.fits⟩, ?_⟩
      · simp [Fits, ht.first a ha]
      · intro a ha c hc
        obtain rfl : j.lexeme = c := by simpa using hc
        simp [Fits, hs.last a ha]
    · rw [List.head?_append_of_ne_nil _ hsne]
      exact hs.first
    · rw [List.getLast?_append_of_ne_nil _ (by simp), List.getLast?_cons_of_ne_nil htne]
      exact ht.last
  bracket := by
    rintro b s ⟨hs, hne⟩
    rw [lexemes_bracketed, List.cons_append]
    refine ⟨⟨?_, ?_, ?_⟩, by simp⟩
    · refine List.isChain_cons.2 ⟨fun a ha => ?_, List.isChain_append.2
        ⟨hs.fits, List.isChain_singleton _, fun a ha c hc => ?_⟩⟩
      · rw [List.head?_append_of_ne_nil _ hne] at ha
        exact hs.first a ha
      · obtain rfl : .closing b = c := by simpa using hc
        simp [Fits, Lexeme.startsPart, hs.last a ha]
    · simp [Lexeme.startsPart]
    · rw [← List.cons_append, List.getLast?_append_of_ne_nil _ (by simp)]
      simp [Lexeme.endsPart]

/-- The tokens of a rendering are orderly. -/
theorem orderly_render {f : Formula} (h : Canonical f) : Orderly (lexemes (render f)) :=
  (compositional_orderly.render f h).1

/-! ### Walking over rendered text -/

open Walker

/-- The text of a formula fills an empty level with the formula; if the formula is no
compound, the text adds it to any level. -/
structure WalksBack (f : Formula) : Prop where
  fills : ∃ j, ∀ o, ∃ row, (Walker.mk ⟨j, []⟩ o).Walk (lexemes (render f)) ⟨row, o⟩ ∧
    row.value = some f
  adds : f.isCompound = false → ∀ row o,
    (Walker.mk row o).Walk (lexemes (render f)) ⟨row.add (some f), o⟩

/-- A walk over a part in brackets adds what the brackets make of it. -/
theorem Walker.Walk.bracket {ls : List Lexeme} {j : Joint} {f : Formula}
    (h : ∀ o, ∃ row, (Walker.mk ⟨j, []⟩ o).Walk ls ⟨row, o⟩ ∧ row.value = some f) (b : Bracket)
    (row : Row) (o : List (Bracket × Row)) :
    (Walker.mk row o).Walk (.opening b :: ls ++ [.closing b])
      ⟨row.add (b.wrap (some f)), o⟩ := by
  obtain ⟨inner, hwalk, hvalue⟩ := h ((b, row) :: o)
  refine ⟨_, ⟨j, rfl⟩, hwalk.append ⟨_, ⟨row, o, rfl, ?_⟩, rfl⟩⟩
  rw [hvalue]

namespace WalksBack

/-- It is enough that a walk adds the formula to any row. -/
theorem of_adds {f : Formula} (h : ∀ row o,
    (Walker.mk row o).Walk (lexemes (render f)) ⟨row.add (some f), o⟩) : WalksBack f :=
  ⟨⟨.and, fun o => ⟨_, h ⟨.and, []⟩ o, rfl⟩⟩, fun _ => h⟩

theorem operand {f : Formula} (h : WalksBack f) (row : Row) (o : List (Bracket × Row)) :
    (Walker.mk row o).Walk (lexemes (operandText f)) ⟨row.add (some f), o⟩ := by
  by_cases hf : f.isCompound = true
  · obtain ⟨j, hfills⟩ := h.fills
    rw [lexemes_operandText_of_isCompound hf]
    exact Walk.bracket hfills .round row o
  · rw [operandText, if_neg hf]
    exact h.adds (by simpa using hf) row o

/-- Operands in a row are collected in a row. -/
theorem operands {j : Joint} {f : Formula} {fs : List Formula}
    (h : ∀ g ∈ f :: fs, WalksBack g) (ps : List Formula) (o : List (Bracket × Row)) :
    (Walker.mk ⟨j, ps⟩ o).Walk (lexemes (j.sign.intercalate ((f :: fs).map operandText)))
      ⟨⟨j, (f :: fs).reverse ++ ps⟩, o⟩ := by
  induction fs generalizing f ps with
  | nil =>
    rw [List.map_singleton, List.intercalate_singleton]
    exact (h f (by simp)).operand ⟨j, ps⟩ o
  | cons g fs ih =>
    obtain ⟨hf, hfs⟩ := List.forall_mem_cons.1 h
    rw [List.map_cons, List.map_cons, List.intercalate_cons_cons, lexemes_sign]
    -- the sign joins this level, and the rest is collected behind `f`
    have hrest := ih hfs (f :: ps)
    have hjoint : (Walker.mk ⟨j, f :: ps⟩ o).Step j.lexeme ⟨⟨j, f :: ps⟩, o⟩ :=
      step_lexeme_iff.2 ⟨rfl, rfl⟩
    rw [List.reverse_cons, List.append_assoc]
    exact (hf.operand ⟨j, ps⟩ o).append ⟨_, hjoint, hrest⟩

/-- Operands that are joined. -/
theorem node {j : Joint} {fs : List Formula} (hlen : 2 ≤ fs.length)
    (h : ∀ g ∈ fs, WalksBack g) (hcompound : (j.node fs).isCompound = true) :
    WalksBack (j.node fs) := by
  refine ⟨⟨j, fun o => ?_⟩, by simp [hcompound]⟩
  obtain ⟨f, fs, rfl⟩ := List.exists_cons_of_length_pos (Nat.lt_of_lt_of_le Nat.two_pos hlen)
  rw [render_node]
  refine ⟨_, operands h [] o, ?_⟩
  rw [Row.value, List.append_nil, List.reverse_reverse, joined_of_two_le hlen]

end WalksBack

mutual

/-- A walk over the text of a canonical tree gives the tree back. -/
theorem walksBack : (f : Formula) → Canonical f → WalksBack f
  | leaf n, h => .of_adds fun row o => by
    rw [render, lexemes_name h]
    exact ⟨_, rfl, rfl⟩
  | and fs, h => .node (j := .and) h.1 (walksBack_operands fs h.2) rfl
  | or fs, h => .node (j := .or) h.1 (walksBack_operands fs h.2) rfl
  | optional f, h => .of_adds fun row o => by
    obtain ⟨hf, hmerge⟩ := h
    obtain ⟨j, hfills⟩ := (walksBack f hf).fills
    have hcurly := Walk.bracket hfills .curly row o
    rw [lexemes_optional]
    rwa [show Bracket.curly.wrap (some f) = some (optional f) from
      congrArg some (orAbsent_eq_optional hmerge)] at hcurly
  | cost f, h => .of_adds fun row o => by
    obtain ⟨j, hfills⟩ := (walksBack f h).fills
    rw [lexemes_cost]
    exact Walk.bracket hfills .square row o

theorem walksBack_operands : (fs : List Formula) → AllCanonical fs → ∀ f ∈ fs, WalksBack f
  | [], _ => by simp
  | f :: fs, h => List.forall_mem_cons.2 ⟨walksBack f h.1, walksBack_operands fs h.2⟩

end

/-- The rendering of a canonical tree stands for it. -/
theorem evaluates_render {f : Formula} (h : Canonical f) :
    Evaluates (lexemes (render f)) (some f) := by
  obtain ⟨j, hfills⟩ := (walksBack f h).fills
  obtain ⟨row, hwalk, hvalue⟩ := hfills []
  exact ⟨j, row, hwalk, hvalue⟩

/-! ### Reading rendered text -/

theorem parse_render {f : Formula} (h : Canonical f) : parse (render f) = .ok (some f) :=
  parse_eq_ok_iff.2 (ofTokens_of_orderly _ (orderly_render h) (evaluates_render h)).1

/-- **Rendering and reading are inverse exactly on canonical formulas**, and every
formula that is read is canonical. -/
theorem parse_render_iff_canonical :
    (∀ f, parse (render f) = .ok (some f) ↔ Canonical f) ∧
      ∀ t f, parse t = .ok (some f) → Canonical f :=
  ⟨fun _ => ⟨canonical_of_parse, parse_render⟩, fun _ _ => canonical_of_parse⟩

end LinkGrammar.Formula
