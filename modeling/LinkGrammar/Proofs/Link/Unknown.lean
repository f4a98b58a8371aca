/-
LinkGrammar/Proofs/Link/Unknown.lean

When a question about words has no answer.

`Grammar.MissesOnly ws x` says that the answer `x` can only be missing because one of the
words `ws` has no rules.  Every question about words is of this kind for the words that it
names.  The last of them takes connectors for words of their own; where formulas state all
rules, a connector always has a rule, and is never reported.
-/
import Mathlib
import LinkGrammar.Proofs.Lexicon.Rule

namespace LinkGrammar.Grammar

variable {g : Grammar} {ws : List Text} {α β : Type}

/-- If there is no answer, a word of `ws` has no rules and is the error. -/
def MissesOnly (g : Grammar) (ws : List Text) (x : Except GenerateError α) : Prop :=
  ∀ e, x = .error e → ∃ w ∈ ws, g.rules w = [] ∧ e = .unknownWord w

namespace MissesOnly

variable {x : Except GenerateError α}

theorem ok (a : α) : g.MissesOnly ws (.ok a) := by
  intro e he
  cases he

/-- More words may be named. -/
theorem mono {vs : List Text} (hx : g.MissesOnly ws x) (h : ws ⊆ vs) : g.MissesOnly vs x := by
  intro e he
  obtain ⟨w, hw, hrules, rfl⟩ := hx e he
  exact ⟨w, h hw, hrules, rfl⟩

/-- One question and, with its answer, another. -/
theorem bind {f : α → Except GenerateError β} (hx : g.MissesOnly ws x)
    (hf : ∀ a, x = .ok a → g.MissesOnly ws (f a)) : g.MissesOnly ws (x >>= f) := by
  intro e he
  rcases h : x with e' | a <;> rw [h] at he
  · cases he
    exact hx e h
  · exact hf a h e he

/-- What is made of an answer misses what the question does. -/
theorem map {f : α → β} (hx : g.MissesOnly ws x) : g.MissesOnly ws (x.map f) := by
  intro e he
  rcases h : x with e' | a <;> rw [h] at he
  · cases he
    exact hx e h
  · cases he

theorem ite {p : Prop} [Decidable p] {y : Except GenerateError α} (hx : p → g.MissesOnly ws x)
    (hy : ¬p → g.MissesOnly ws y) : g.MissesOnly ws (if p then x else y) := by
  split
  · next h => exact hx h
  · next h => exact hy h

theorem foldlM {step : β → α → Except GenerateError β} {l : List α}
    (h : ∀ b, ∀ a ∈ l, g.MissesOnly ws (step b a)) (b : β) : g.MissesOnly ws (l.foldlM step b) := by
  induction l generalizing b with
  | nil => exact ok b
  | cons a l ih =>
    obtain ⟨ha, hl⟩ : (∀ b, g.MissesOnly ws (step b a)) ∧
        ∀ b, ∀ a ∈ l, g.MissesOnly ws (step b a) :=
      ⟨fun b => h b a List.mem_cons_self, fun b a ha => h b a (List.mem_cons_of_mem _ ha)⟩
    rw [List.foldlM_cons]
    exact (ha b).bind fun b' _ => ih hl b'

theorem forIn {step : α → β → Except GenerateError (ForInStep β)} {l : List α}
    (h : ∀ a ∈ l, ∀ b, g.MissesOnly ws (step a b)) (b : β) : g.MissesOnly ws (forIn l b step) := by
  induction l generalizing b with
  | nil => exact ok b
  | cons a l ih =>
    obtain ⟨ha, hl⟩ := List.forall_mem_cons.1 h
    rw [List.forIn_cons]
    apply (ha b).bind
    rintro (b' | b') _
    · exact ok b'
    · exact ih hl b'

/-- A word with a rule laid over the grammar is not missed. -/
theorem of_overlay {c : Text} {rule : Rule} (h : (g.overlay [(c, rule)]).MissesOnly (c :: ws) x) :
    g.MissesOnly ws x := by
  intro e he
  obtain ⟨w, hw, hrules, rfl⟩ := h e he
  by_cases hc : c = w
  · simp [overlay, hc] at hrules
  · refine ⟨w, (List.mem_cons.1 hw).resolve_left (Ne.symm hc), ?_, rfl⟩
    simpa [overlay, hc] using hrules

end MissesOnly

/-! ### Two words -/

variable {left mid right next : Text}

/-- Asking for the rules of a word can miss this word. -/
theorem missesOnly_knownRules {w : Text} (hw : w ∈ ws) : g.MissesOnly ws (g.knownRules w) := by
  intro e he
  unfold knownRules at he
  split at he
  · next hrules =>
    cases he
    exact ⟨w, hw, hrules, rfl⟩
  · cases he

theorem rules_of_knownRules {w : Text} {rules : List Rule} (h : g.knownRules w = .ok rules) :
    g.rules w = rules := by
  unfold knownRules at h
  split at h
  · cases h
  · cases h
    rfl

/-- The rules that are given are those of the word, and there is one. -/
theorem knownRules_eq_ok_iff {w : Text} {rules : List Rule} :
    g.knownRules w = .ok rules ↔ g.rules w = rules ∧ g.rules w ≠ [] := by
  constructor
  · intro h
    obtain rfl := rules_of_knownRules h
    refine ⟨rfl, fun hnil => ?_⟩
    simp [knownRules, hnil] at h
  · rintro ⟨rfl, hne⟩
    unfold knownRules
    split
    · next hnil => exact absurd hnil hne
    · rfl

theorem missesOnly_firstLink? (hleft : left ∈ ws) (hright : right ∈ ws) :
    g.MissesOnly ws (g.firstLink? left right) := by
  apply (missesOnly_knownRules hleft).bind
  intro leftRules _
  apply (missesOnly_knownRules hright).bind
  intro rightRules _
  exact .ite (fun _ => .ok _) fun _ => .ok _

theorem missesOnly_connects (hleft : left ∈ ws) (hright : right ∈ ws) :
    g.MissesOnly ws (g.connects left right) :=
  (missesOnly_firstLink? hleft hright).map

theorem missesOnly_connectsAt {side : Side} (hleft : left ∈ ws) (hright : right ∈ ws) :
    g.MissesOnly ws (g.connectsAt side left right) :=
  (missesOnly_firstLink? hleft hright).map

theorem missesOnly_connectsMin (hleft : left ∈ ws) (hright : right ∈ ws) :
    g.MissesOnly ws (g.connectsMin left right) := by
  apply (missesOnly_knownRules hleft).bind
  intro leftRules _
  apply (missesOnly_knownRules hright).bind
  intro rightRules _
  exact .ok _

/-! ### More words -/

/-- The check of three words asks about these. -/
theorem missesOnly_connectsThrough (hleft : left ∈ ws) (hmid : mid ∈ ws) (hright : right ∈ ws) :
    g.MissesOnly ws (g.connectsThrough left mid right) := by
  refine .ite (fun _ => .ok _) fun _ => ?_
  apply (missesOnly_connectsAt hleft hright).bind
  intro _ _
  apply (missesOnly_connectsAt hmid hright).bind
  intro _ _
  exact .ok _

theorem missesOnly_connectsLeft (hleft : left ∈ ws) (hmid : mid ∈ ws) (hright : right ∈ ws) :
    g.MissesOnly ws (g.connectsLeft left mid right) := by
  refine .ite (fun _ => .ok _) fun _ => ?_
  apply (missesOnly_connectsAt hleft hmid).bind
  intro _ _
  apply (missesOnly_connectsAt hleft hright).bind
  intro _ _
  exact .ok _

/-- The check of four words asks about these. -/
theorem missesOnly_connectsFour (hleft : left ∈ ws) (hmid : mid ∈ ws) (hright : right ∈ ws)
    (hnext : next ∈ ws) : g.MissesOnly ws (g.connectsFour left mid right next) := by
  apply (missesOnly_knownRules hleft).bind
  intro leftRules _
  apply (missesOnly_knownRules hmid).bind
  intro midRules _
  apply (missesOnly_knownRules hright).bind
  intro rightRules _
  apply (missesOnly_knownRules hnext).bind
  intro nextRules _
  split
  · exact .ok _
  · exact .ok _

/-! ### Connectors as words -/

/-- The connector that is laid over the grammar is known there, so it is not missed. -/
theorem missesOnly_reachFrom {c : Connector} (hc : Formula.IsName c) (hmid : mid ∈ ws)
    (hright : right ∈ ws) (hnext : next ∈ ws) (found : Reach) :
    g.MissesOnly ws (g.reachFrom mid right next found c) := by
  -- the connector states a rule, so it is laid over the grammar
  obtain ⟨rule, hrule⟩ := exists_ofText_of_isName hc
  have hword : g.withConnectorWord c = .ok (g.overlay [(c, rule)]) := by
    unfold withConnectorWord
    rw [hrule]
  have hwords : ∀ w ∈ ws, w ∈ c :: ws := fun w hw => List.mem_cons_of_mem c hw
  unfold reachFrom
  rw [hword]
  refine MissesOnly.of_overlay (?_ : (g.overlay [(c, rule)]).MissesOnly (c :: ws) _)
  apply (missesOnly_connectsThrough List.mem_cons_self (hwords _ hmid) (hwords _ hright)).bind
  intro _ _
  apply (missesOnly_connects List.mem_cons_self (hwords _ hnext)).bind
  intro _ _
  exact .ok _

/-- The branchings of rules are the rightward parts with two connectors or more. -/
theorem mem_branchings {rules : List Rule} {b : List Connector} :
    b ∈ branchings rules ↔
      ∃ rule ∈ rules, ∃ d ∈ rule.disjuncts, d.rightward = b ∧ 2 ≤ b.length := by
  simp only [branchings, List.mem_filter, List.mem_map, List.mem_flatMap, decide_eq_true_eq]
  constructor
  · rintro ⟨⟨d, ⟨rule, hrule, hd⟩, hb⟩, hlen⟩
    exact ⟨rule, hrule, d, hd, hb, hlen⟩
  · rintro ⟨rule, hrule, d, hd, hb, hlen⟩
    exact ⟨⟨d, ⟨rule, hrule, hd⟩, hb⟩, hlen⟩

/-- The connectors in the branchings of rules are those of their disjuncts. -/
theorem exists_of_mem_branchings {rules : List Rule} {c : Connector}
    (h : c ∈ (branchings rules).flatten) : ∃ rule ∈ rules, ∃ d ∈ rule.disjuncts, c ∈ d := by
  obtain ⟨b, hb, hc⟩ := List.mem_flatten.1 h
  obtain ⟨rule, hrule, d, hd, rfl, -⟩ := mem_branchings.1 hb
  exact ⟨rule, hrule, d, hd, List.mem_of_mem_filter hc⟩

/-- The rules one after the other, each by the connectors in its branchings. -/
theorem missesOnly_reachAll {rules : List Rule}
    (hrules : ∀ rule ∈ rules, ∀ d ∈ rule.disjuncts, ∀ c ∈ d, Formula.IsName c) (hmid : mid ∈ ws)
    (hright : right ∈ ws) (hnext : next ∈ ws) (found : Reach) :
    g.MissesOnly ws (g.reachAll mid right next found rules) := by
  induction rules generalizing found with
  | nil => exact .ok _
  | cons rule rules ih =>
    obtain ⟨hrule, hrules⟩ := List.forall_mem_cons.1 hrules
    have hnames : ∀ c ∈ (branchings [rule]).flatten, Formula.IsName c := by
      intro c hc
      obtain ⟨r, hr, d, hd, hcd⟩ := exists_of_mem_branchings hc
      obtain rfl : r = rule := List.mem_singleton.1 hr
      exact hrule d hd c hcd
    rw [reachAll]
    apply (MissesOnly.foldlM (fun found c hc =>
      missesOnly_reachFrom (hnames c hc) hmid hright hnext found) found).bind
    intro found' _
    exact .ite (fun _ => .ok _) fun _ => ih hrules found'

/-- Where formulas state all rules, no connector is missed. -/
theorem missesOnly_connectsAll (hg : g.Stated) (hleft : left ∈ ws) (hmid : mid ∈ ws)
    (hright : right ∈ ws) (hnext : next ∈ ws) :
    g.MissesOnly ws (g.connectsAll left mid right next) := by
  have hwords : ∀ word ∈ [mid, right, next], word ∈ ws := by
    simp [hmid, hright, hnext]
  apply (missesOnly_knownRules hleft).bind
  intro leftRules hleftRules
  have hnames : ∀ rule ∈ leftRules, ∀ d ∈ rule.disjuncts, ∀ c ∈ d, Formula.IsName c := by
    intro rule hrule d hd c hc
    rw [← rules_of_knownRules hleftRules] at hrule
    exact hg.isName hrule hd hc
  refine (MissesOnly.forIn (fun word hword _ => ?_) ()).bind fun _ _ => ?_
  · apply (missesOnly_knownRules (hwords word hword)).bind
    intro _ _
    exact .ok _
  · exact missesOnly_reachAll hnames hmid hright hnext _

end LinkGrammar.Grammar
