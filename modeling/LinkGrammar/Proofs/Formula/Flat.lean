/-
LinkGrammar/Proofs/Formula/Flat.lean

The flat text of a normal form.

A flat text is made by striking the brackets out of the text of a normal form, and nothing is put
in their place.  So a name could run into the next one.  It does not: what a bracket keeps apart
from a name is a space of an operator, another bracket, or the end of the text.

Main result: the tokens of the flat text are the connectors of the normal form, in order, with
one operator between each two of them.  Since the text of a normal form is that of a formula
(`NormalForm.render_eq`), it is enough to know this of formulas (`lists_render`).
-/
import LinkGrammar.Proofs.Formula.Idempotence
import LinkGrammar.Proofs.Formula.Leaves

namespace LinkGrammar.Formula

/-- Connectors with an operator between each two of them. -/
inductive Alternates : List Connector → List Lexeme → Prop
  | nil : Alternates [] []
  | single (c : Connector) : Alternates [c] [.name c]
  | cons (c : Connector) (j : Joint) {d : Connector} {cs : List Connector} {ls : List Lexeme}
      (h : Alternates (d :: cs) ls) : Alternates (c :: d :: cs) (.name c :: j.lexeme :: ls)

/-- Two alternating runs with an operator between them. -/
theorem Alternates.join {cs ds : List Connector} {ls ms : List Lexeme} (h : Alternates cs ls)
    (h' : Alternates ds ms) (hcs : cs ≠ []) (hds : ds ≠ []) (j : Joint) :
    Alternates (cs ++ ds) (ls ++ j.lexeme :: ms) := by
  induction h with
  | nil => exact absurd rfl hcs
  | single c =>
    obtain ⟨d, ds, rfl⟩ := List.exists_cons_of_ne_nil hds
    exact .cons c j h'
  | cons c j' _ ih => exact .cons c j' (ih (List.cons_ne_nil _ _))

/-! ### Texts without brackets -/

/-- The text with its brackets struck out. -/
def unbracketed (t : Text) : Text := t.filter fun c => !(isOpener c || isCloser c)

theorem unbracketed_append (s t : Text) : unbracketed (s ++ t) = unbracketed s ++ unbracketed t :=
  List.filter_append s t

/-- Without brackets a group is what stands in it. -/
theorem unbracketed_bracketed (b : Bracket) (t : Text) :
    unbracketed (b.opener :: t ++ [b.closer]) = unbracketed t := by
  have hopen : unbracketed [b.opener] = [] := by cases b <;> rfl
  have hclose : unbracketed [b.closer] = [] := by cases b <;> rfl
  rw [← List.singleton_append, unbracketed_append, unbracketed_append, hopen, hclose,
    List.nil_append, List.append_nil]

theorem unbracketed_sign (j : Joint) : unbracketed j.sign = j.sign := by
  cases j <;> rfl

/-- There are no brackets in names. -/
theorem unbracketed_name {n : Text} (h : IsName n) : unbracketed n = n := by
  refine List.filter_eq_self.2 fun c hc => ?_
  rw [Bool.not_eq_true', Bool.or_eq_false_iff]
  constructor
  · rw [Bool.eq_false_iff, Ne, isOpener_iff]
    rintro ⟨b, rfl⟩
    cases (not_isNameChar_opener b).symm.trans (h.2.1 _ hc)
  · rw [Bool.eq_false_iff, Ne, isCloser_iff]
    rintro ⟨b, rfl⟩
    cases (not_isNameChar_closer b).symm.trans (h.2.1 _ hc)

/-- Without its brackets the text is a list of the connectors, of which there are some. -/
structure Lists (t : Text) (cs : List Connector) : Prop where
  ne_nil : cs ≠ []
  alternates : Alternates cs (lexemes (unbracketed t))

namespace Lists

variable {s t : Text} {cs ds : List Connector}

theorem name {n : Text} (h : IsName n) : Lists n [n] where
  ne_nil := List.cons_ne_nil n []
  alternates := by
    rw [unbracketed_name h, lexemes_name h]
    exact .single n

/-- Brackets do not change what is listed. -/
theorem bracket (h : Lists t cs) (b : Bracket) : Lists (b.opener :: t ++ [b.closer]) cs where
  ne_nil := h.ne_nil
  alternates := by
    rw [unbracketed_bracketed]
    exact h.alternates

/-- The spaces of an operator stay, whatever brackets stand next to them. -/
theorem join (hs : Lists s cs) (ht : Lists t ds) (j : Joint) :
    Lists (s ++ j.sign ++ t) (cs ++ ds) where
  ne_nil := List.append_ne_nil_of_left_ne_nil hs.ne_nil ds
  alternates := by
    rw [unbracketed_append, unbracketed_append, unbracketed_sign, lexemes_sign]
    exact hs.alternates.join ht.alternates hs.ne_nil ht.ne_nil j

theorem operandText {f : Formula} (h : Lists (render f) cs) : Lists (operandText f) cs := by
  unfold Formula.operandText
  split
  · exact h.bracket .round
  · exact h

end Lists

mutual

/-- The text of a formula lists its connectors. -/
theorem lists_render : (f : Formula) → Canonical f → Lists (render f) (leaves f)
  | leaf n, h => by
    rw [render]
    exact .name h
  | and fs, h => by
    show Lists (render (Joint.and.node fs)) (leavesAll fs)
    rw [render_node]
    exact lists_operands .and fs h.2 (List.ne_nil_of_length_pos (Nat.lt_of_lt_of_le Nat.two_pos h.1))
  | or fs, h => by
    show Lists (render (Joint.or.node fs)) (leavesAll fs)
    rw [render_node]
    exact lists_operands .or fs h.2 (List.ne_nil_of_length_pos (Nat.lt_of_lt_of_le Nat.two_pos h.1))
  | optional f, h => by
    rw [render]
    exact (lists_render f h.1).bracket .curly
  | cost f, h => by
    rw [render]
    exact (lists_render f h).bracket .square

/-- Operands list their leaves, with one operator between two of them. -/
theorem lists_operands (j : Joint) : (fs : List Formula) → AllCanonical fs → fs ≠ [] →
    Lists (j.sign.intercalate (fs.map operandText)) (leavesAll fs)
  | [], _, hne => absurd rfl hne
  | [f], h, _ => by
    show Lists _ (leaves f ++ [])
    rw [List.map_singleton, List.intercalate_singleton, List.append_nil]
    exact (lists_render f h.1).operandText
  | f :: g :: fs, h, _ => by
    rw [List.map_cons, List.map_cons, List.intercalate_cons_cons]
    exact (lists_render f h.1).operandText.join
      (lists_operands j (g :: fs) h.2 (List.cons_ne_nil g fs)) j

end

/-! ### The flat text of a normal form -/

/-- Only no operands are joined to nothing. -/
theorem joined_eq_none_iff {node : List Formula → Formula} {fs : List Formula} :
    joined node fs = none ↔ fs = [] := by
  rcases fs with - | ⟨f, - | ⟨g, fs⟩⟩ <;> simp [joined]

theorem leavesAll_conjuncts (f : Formula) : leavesAll f.conjuncts = leaves f := by
  cases f with
  | and fs => rfl
  | _ => exact List.append_nil _

namespace NormalForm

/-- The connectors of the required part, and then those of each group. -/
def connectors (n : NormalForm) : List Connector :=
  (n.required.map leaves).getD [] ++ n.optionals.flatMap fun g => leaves g.body

theorem leavesAll_operands (n : NormalForm) : leavesAll n.operands = n.connectors := by
  have hgroups : leavesAll (n.optionals.map fun g => optional g.body)
      = n.optionals.flatMap fun g => leaves g.body := by
    induction n.optionals with
    | nil => rfl
    | cons g gs ih =>
      show leaves g.body ++ leavesAll (gs.map _) = _
      rw [ih, List.flatMap_cons]
  rw [operands, leavesAll_append, hgroups, connectors]
  rcases n.required with - | f
  · rfl
  · exact congrArg (· ++ _) (leavesAll_conjuncts f)

/-- The flat text of a proper normal form alternates its connectors and operators. -/
theorem alternates_flat {n : NormalForm} (h : n.Proper) :
    Alternates n.connectors (lexemes n.flat) := by
  show Alternates _ (lexemes (tidy (unbracketed n.render)))
  rw [lexemes_tidy, render_eq h, ← leavesAll_operands]
  rcases e : n.toFormula with - | f
  · -- there is neither a required part nor a group
    rw [toFormula, joined_eq_none_iff] at e
    rw [e]
    exact lexemes_nil ▸ .nil
  · rw [← leaves_of_mem_joined (j := .and) e]
    exact (lists_render f (h.canonicalPart_toFormula f e)).alternates

end NormalForm

/-- **The flat text of a normal form lists every connector once and in order.**  Its tokens are
the connectors of the required part, from left to right, and then those of each group, with one
operator between each two of them. -/
theorem alternates_of_normalize {t : Text} {n : NormalForm} (h : normalize t = .ok n) :
    Alternates ((n.required.map leaves).getD [] ++ n.optionals.flatMap fun g => leaves g.body)
      (lexemes n.flat) := by
  obtain ⟨f, hparse, rfl⟩ := exists_ofFormula_of_normalize h
  exact NormalForm.alternates_flat
    (NormalForm.proper_ofFormula fun g hg => canonical_of_parse (hparse.trans (congrArg _ hg)))

theorem alternates_of_normalize_nestedChoice :
    normalize (render nestedChoice) = .ok nestedChoiceForm ∧
      nestedChoiceForm.flat = "S & M or O".toList ∧
      Alternates [['S'], ['M'], ['O']] (lexemes nestedChoiceForm.flat) :=
  ⟨normalize_nestedChoice, by decide +kernel, alternates_of_normalize normalize_nestedChoice⟩

end LinkGrammar.Formula
