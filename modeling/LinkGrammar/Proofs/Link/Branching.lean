/-
LinkGrammar/Proofs/Link/Branching.lean

What the branchings of a word decide.

Two checks look through the disjuncts of their first word that have several rightward
connectors.  Both keep what they have found when they go on, one to the next rule and the
other to the next disjunct:

* `connectsAll` looks for a connector that links through `mid` to `right`, and for one that
  links to `next`;
* `connectsFour` looks for the first place at which each of three words attaches.

So what they find need not stand together.  Main results: `connectsAll` answers yes exactly
when there are two such connectors, of one rule or of two, and `connectsFour` exactly when
the three first places are in order, whichever disjuncts they stand in.
-/
import Mathlib
import LinkGrammar.Proofs.Link.Unknown

namespace LinkGrammar.Grammar

variable {g : Grammar} {left mid right next : Text}

/-! ### Connectors as words -/

/-- The connector is one of several rightward ones in a disjunct of the rule. -/
def Branches (rule : Rule) (c : Connector) : Prop :=
  ∃ d ∈ rule.disjuncts, 2 ≤ d.rightward.length ∧ c ∈ d.rightward

theorem mem_flatten_branchings {rule : Rule} {c : Connector} :
    c ∈ (branchings [rule]).flatten ↔ Branches rule c := by
  constructor
  · intro h
    obtain ⟨b, hb, hc⟩ := List.mem_flatten.1 h
    obtain ⟨r, hr, d, hd, rfl, hlen⟩ := mem_branchings.1 hb
    obtain rfl : r = rule := List.mem_singleton.1 hr
    exact ⟨d, hd, hlen, hc⟩
  · rintro ⟨d, hd, hlen, hc⟩
    have hbranching : d.rightward ∈ branchings [rule] :=
      mem_branchings.2 ⟨rule, List.mem_singleton_self rule, d, hd, rfl, hlen⟩
    exact List.mem_flatten.2 ⟨d.rightward, hbranching, hc⟩

/-- The connector, laid over the grammar as a word, links through `mid` to `right`. -/
def LinksThrough (g : Grammar) (mid right : Text) (c : Connector) : Prop :=
  ∃ extended, g.withConnectorWord c = .ok extended ∧
    extended.connectsThrough c mid right = .ok true

/-- The connector, laid over the grammar as a word, links to `next`. -/
def LinksOn (g : Grammar) (next : Text) (c : Connector) : Prop :=
  ∃ extended, g.withConnectorWord c = .ok extended ∧ extended.connects c next = .ok true

instance (g : Grammar) (mid right : Text) (c : Connector) :
    Decidable (g.LinksThrough mid right c) :=
  decidable_of_iff
    ((g.withConnectorWord c >>= fun extended => extended.connectsThrough c mid right) = .ok true)
    bind_eq_ok

instance (g : Grammar) (next : Text) (c : Connector) : Decidable (g.LinksOn next c) :=
  decidable_of_iff
    ((g.withConnectorWord c >>= fun extended => extended.connects c next) = .ok true) bind_eq_ok

/-- What is found after more connectors were tried, those that satisfy `tried`. -/
structure Reach.Extends (g : Grammar) (mid right next : Text) (tried : Connector → Prop)
    (found found' : Reach) : Prop where
  through : found'.through = true ↔
    found.through = true ∨ ∃ c, tried c ∧ g.LinksThrough mid right c
  onward : found'.onward = true ↔ found.onward = true ∨ ∃ c, tried c ∧ g.LinksOn next c

/-- One connector. -/
theorem extends_of_reachFrom {found found' : Reach} {c : Connector}
    (h : g.reachFrom mid right next found c = .ok found') :
    Reach.Extends g mid right next (· = c) found found' := by
  obtain ⟨extended, hword, h⟩ := bind_eq_ok.1 h
  obtain ⟨through, hthrough, h⟩ := bind_eq_ok.1 h
  obtain ⟨onward, honward, h⟩ := bind_eq_ok.1 h
  cases h
  constructor
  · have hlinks : g.LinksThrough mid right c ↔ through = true := by
      simp [LinksThrough, hword, hthrough]
    simp only [exists_eq_left, hlinks, Bool.or_eq_true]
  · have hlinks : g.LinksOn next c ↔ onward = true := by
      simp [LinksOn, hword, honward]
    simp only [exists_eq_left, hlinks, Bool.or_eq_true]

/-- The connectors of a rule, one after the other. -/
theorem extends_of_foldlM_reachFrom {found found' : Reach} {cs : List Connector}
    (h : cs.foldlM (g.reachFrom mid right next) found = .ok found') :
    Reach.Extends g mid right next (· ∈ cs) found found' := by
  induction cs generalizing found with
  | nil =>
    cases h
    constructor <;> simp
  | cons c cs ih =>
    rw [List.foldlM_cons] at h
    obtain ⟨found₁, hc, h⟩ := bind_eq_ok.1 h
    have hstep := extends_of_reachFrom hc
    have hrest := ih h
    constructor
    · simp only [hrest.through, hstep.through, List.mem_cons, or_and_right, exists_or, or_assoc]
    · simp only [hrest.onward, hstep.onward, List.mem_cons, or_and_right, exists_or, or_assoc]

/-- The rules one after the other.  What was found in earlier rules still counts. -/
theorem reachAll_eq_true_iff {found : Reach} {rules : List Rule} {ok : Bool}
    (hfound : ¬(found.through = true ∧ found.onward = true))
    (h : g.reachAll mid right next found rules = .ok ok) :
    ok = true ↔
      (found.through = true ∨ ∃ rule ∈ rules, ∃ c, Branches rule c ∧ g.LinksThrough mid right c) ∧
      (found.onward = true ∨ ∃ rule ∈ rules, ∃ c, Branches rule c ∧ g.LinksOn next c) := by
  induction rules generalizing found with
  | nil =>
    cases h
    simpa using hfound
  | cons rule rules ih =>
    rw [reachAll] at h
    obtain ⟨found', hfold, h⟩ := bind_eq_ok.1 h
    have hrule := extends_of_foldlM_reachFrom hfold
    have hthrough := hrule.through
    have honward := hrule.onward
    simp only [mem_flatten_branchings] at hthrough honward
    simp only [List.mem_cons, exists_eq_or_imp, ← or_assoc, ← hthrough, ← honward]
    by_cases hboth : found'.through = true ∧ found'.onward = true
    · -- both are found, and no further rule is asked
      rw [if_pos (by simp [hboth])] at h
      cases h
      simp [hboth]
    · rw [if_neg (by simpa using hboth)] at h
      exact ih hboth h

/-- **When connectors reach both ways.**  Of words with rules, in a grammar whose rules are
stated by formulas, the question always has an answer.  It is yes exactly when some rule of
`left` has a connector that links through `mid` to `right`, and some rule of it, the same or
another, has one that links to `next`. -/
theorem connectsAll_iff_of_known (hg : g.Stated)
    (hknown : ∀ w ∈ [left, mid, right, next], g.rules w ≠ []) :
    ∃ ok, g.connectsAll left mid right next = .ok ok ∧
      (ok = true ↔ ∃ rule ∈ g.rules left, ∃ rule' ∈ g.rules left,
        (∃ c, Branches rule c ∧ g.LinksThrough mid right c) ∧
          ∃ d, Branches rule' d ∧ g.LinksOn next d) := by
  rcases hanswer : g.connectsAll left mid right next with e | ok
  · -- no word is missing
    have hmisses : g.MissesOnly [left, mid, right, next] (g.connectsAll left mid right next) :=
      missesOnly_connectsAll hg (by simp) (by simp) (by simp) (by simp)
    obtain ⟨w, hw, hrules, -⟩ := hmisses e hanswer
    exact absurd hrules (hknown w hw)
  · refine ⟨ok, rfl, ?_⟩
    obtain ⟨leftRules, hrules, h⟩ := bind_eq_ok.1 hanswer
    obtain ⟨_, -, h⟩ := bind_eq_ok.1 h
    rw [rules_of_knownRules hrules]
    rw [reachAll_eq_true_iff (by simp) h]
    simp only [Bool.false_eq_true, false_or]
    constructor
    · rintro ⟨⟨rule, hrule, hthrough⟩, rule', hrule', honward⟩
      exact ⟨rule, hrule, rule', hrule', hthrough, honward⟩
    · rintro ⟨rule, hrule, rule', hrule', hthrough, honward⟩
      exact ⟨⟨rule, hrule, hthrough⟩, rule', hrule', honward⟩

/-- `saw` has one rule whose connectors reach a noun behind an article, and one whose connectors
reach `with`. -/
def sawText : Text :=
  "saw: O+ & X+; saw: Y+ & MV+; the: D+; man: {O-} & {D-}; with: MV- & J+;".toList

/-- The lexicon of `sawText`. -/
def sawLexicon : Lexicon := (Lexicon.ofDictionary sawText).toOption.getD .empty

theorem stated_sawLexicon : sawLexicon.grammar.Stated :=
  Lexicon.stated_getD fun _ => Lexicon.stated_ofDictionary

theorem known_sawLexicon :
    ∀ w ∈ ["saw".toList, "the".toList, "man".toList, "with".toList],
      sawLexicon.grammar.rules w ≠ [] := by
  have hall : (["saw".toList, "the".toList, "man".toList, "with".toList].all fun w =>
      !(sawLexicon.grammar.rules w).isEmpty) = true := by cbv
  simpa only [List.all_eq_true, Bool.not_eq_true', List.isEmpty_eq_false_iff] using hall

theorem connectsAll_saw :
    sawLexicon.grammar.connectsAll "saw".toList "the".toList "man".toList "with".toList
      = .ok true := by
  cbv

/-- Of `saw` one rule has a connector that links through `the` to `man`, and one has a connector
that links to `with`. -/
theorem connectsAll_iff_of_known_saw :
    let g := sawLexicon.grammar
    g.Stated ∧ (∀ w ∈ ["saw".toList, "the".toList, "man".toList, "with".toList], g.rules w ≠ []) ∧
      ∃ rule ∈ g.rules "saw".toList, ∃ rule' ∈ g.rules "saw".toList,
        (∃ c, Branches rule c ∧ g.LinksThrough "the".toList "man".toList c) ∧
          ∃ d, Branches rule' d ∧ g.LinksOn "with".toList d := by
  intro g
  obtain ⟨ok, hok, hiff⟩ := connectsAll_iff_of_known stated_sawLexicon known_sawLexicon
  rw [connectsAll_saw] at hok
  cases hok
  exact ⟨stated_sawLexicon, known_sawLexicon, hiff.1 rfl⟩

/-- The two rules are not one: no rule of `saw` has both connectors. -/
theorem connectsAll_over_two_rules :
    let g := sawLexicon.grammar
    g.connectsAll "saw".toList "the".toList "man".toList "with".toList = .ok true ∧
      ¬∃ rule ∈ g.rules "saw".toList,
        (∃ c, Branches rule c ∧ g.LinksThrough "the".toList "man".toList c) ∧
          ∃ d, Branches rule d ∧ g.LinksOn "with".toList d := by
  intro g
  refine ⟨connectsAll_saw, ?_⟩
  have hall : ((sawLexicon.grammar.rules "saw".toList).all fun rule =>
      ((branchings [rule]).flatten.all fun c =>
        !decide (sawLexicon.grammar.LinksThrough "the".toList "man".toList c)) ||
      (branchings [rule]).flatten.all fun d =>
        !decide (sawLexicon.grammar.LinksOn "with".toList d)) = true := by
    cbv
  simp only [List.all_eq_true, Bool.or_eq_true, Bool.not_eq_true', decide_eq_false_iff_not,
    mem_flatten_branchings] at hall
  rintro ⟨rule, hrule, ⟨c, hc, hthrough⟩, d, hd, hon⟩
  rcases hall rule hrule with h | h
  · exact h c hc hthrough
  · exact h d hd hon

/-! ### Places in branchings -/

/-- The `k`-th connector of the branching `b` is the first one that passes the test: no
connector before it in `b` does, and none in the branchings before `b`. -/
structure FirstAt (test : Connector → Bool) (bs : List (List Connector)) (b : List Connector)
    (k : Nat) : Prop where
  passes : ∃ c, b[k]? = some c ∧ test c = true
  first_in_branching : ∀ c ∈ b.take k, test c = false
  first_branching : ∃ before after, bs = before ++ b :: after ∧
    ∀ a ∈ before, ∀ c ∈ a, test c = false

theorem findIdx?_eq_some_iff {test : Connector → Bool} {b : List Connector} {k : Nat} :
    b.findIdx? test = some k ↔
      (∃ c, b[k]? = some c ∧ test c = true) ∧ ∀ c ∈ b.take k, test c = false := by
  rw [List.findIdx?_eq_some_iff_getElem]
  constructor
  · rintro ⟨hk, hpasses, hfirst⟩
    refine ⟨⟨b[k], List.getElem?_eq_getElem hk, hpasses⟩, fun c hc => ?_⟩
    obtain ⟨j, hj, rfl⟩ := List.mem_take_iff_getElem.1 hc
    have hjk : j < k := by omega
    simpa using hfirst j hjk
  · rintro ⟨⟨c, hc, hpasses⟩, hfirst⟩
    obtain ⟨hk, rfl⟩ := List.getElem?_eq_some_iff.1 hc
    refine ⟨hk, hpasses, fun j hj => ?_⟩
    have hmem : b[j] ∈ b.take k := List.mem_take_iff_getElem.2 ⟨j, by omega, rfl⟩
    simp [hfirst _ hmem]

theorem firstPlace?_eq_some_iff {test : Connector → Bool} {bs : List (List Connector)} {k : Nat} :
    firstPlace? test bs = some k ↔ ∃ b, FirstAt test bs b k := by
  rw [firstPlace?, List.findSome?_eq_some_iff]
  constructor
  · rintro ⟨before, b, after, hbs, hk, hbefore⟩
    obtain ⟨hpasses, hfirst⟩ := findIdx?_eq_some_iff.1 hk
    exact ⟨b, hpasses, hfirst, before, after, hbs, fun a ha =>
      List.findIdx?_eq_none_iff.1 (hbefore a ha)⟩
  · rintro ⟨b, hpasses, hfirst, before, after, hbs, hbefore⟩
    exact ⟨before, b, after, hbs, findIdx?_eq_some_iff.2 ⟨hpasses, hfirst⟩, fun a ha =>
      List.findIdx?_eq_none_iff.2 (hbefore a ha)⟩

/-- One disjunct of `left` has rightward connectors to which `mid`, `right` and `next` attach,
in this order. -/
def Seats (g : Grammar) (left mid right next : Text) : Prop :=
  ∃ rule ∈ g.rules left, ∃ d ∈ rule.disjuncts, ∃ m r n : Nat, m < r ∧ r < n ∧
    (∃ c, d.rightward[m]? = some c ∧ meetsSole (g.rules mid) c = true) ∧
    (∃ c, d.rightward[r]? = some c ∧ meetsSole (g.rules right) c = true) ∧
    ∃ c, d.rightward[n]? = some c ∧ meetsAny (g.rules next) c = true

theorem FirstAt.mem {test : Connector → Bool} {bs : List (List Connector)} {b : List Connector}
    {k : Nat} (h : FirstAt test bs b k) : b ∈ bs := by
  obtain ⟨before, after, rfl, -⟩ := h.first_branching
  simp

/-- The three places, of words that all have rules. -/
theorem connectsFour_eq_true_iff_firstPlace? :
    g.connectsFour left mid right next = .ok true ↔
      (∀ w ∈ [left, mid, right, next], g.rules w ≠ []) ∧
      ∃ m r n, m < r ∧ r < n ∧
        firstPlace? (meetsSole (g.rules mid)) (branchings (g.rules left)) = some m ∧
        firstPlace? (meetsSole (g.rules right)) (branchings (g.rules left)) = some r ∧
        firstPlace? (meetsAny (g.rules next)) (branchings (g.rules left)) = some n := by
  constructor
  · intro h
    obtain ⟨leftRules, hleft, h⟩ := bind_eq_ok.1 h
    obtain ⟨midRules, hmid, h⟩ := bind_eq_ok.1 h
    obtain ⟨rightRules, hright, h⟩ := bind_eq_ok.1 h
    obtain ⟨nextRules, hnext, h⟩ := bind_eq_ok.1 h
    obtain ⟨rfl, hleftNe⟩ := knownRules_eq_ok_iff.1 hleft
    obtain ⟨rfl, hmidNe⟩ := knownRules_eq_ok_iff.1 hmid
    obtain ⟨rfl, hrightNe⟩ := knownRules_eq_ok_iff.1 hright
    obtain ⟨rfl, hnextNe⟩ := knownRules_eq_ok_iff.1 hnext
    refine ⟨by simp [hleftNe, hmidNe, hrightNe, hnextNe], ?_⟩
    split at h
    · next m r n hm hr hn =>
      have hlt : (decide (m < r) && decide (r < n)) = true := Except.ok.inj h
      simp only [Bool.and_eq_true, decide_eq_true_eq] at hlt
      exact ⟨m, r, n, hlt.1, hlt.2, hm, hr, hn⟩
    · cases h
  · rintro ⟨hknown, m, r, n, hmr, hrn, hm, hr, hn⟩
    have hrules : ∀ w ∈ [left, mid, right, next], g.knownRules w = .ok (g.rules w) :=
      fun w hw => knownRules_eq_ok_iff.2 ⟨rfl, hknown w hw⟩
    refine bind_eq_ok.2 ⟨_, hrules left (by simp), ?_⟩
    refine bind_eq_ok.2 ⟨_, hrules mid (by simp), ?_⟩
    refine bind_eq_ok.2 ⟨_, hrules right (by simp), ?_⟩
    refine bind_eq_ok.2 ⟨_, hrules next (by simp), ?_⟩
    rw [hm, hr, hn]
    simp [hmr, hrn, pure, Except.pure]

/-- **When three words attach in order.**  The answer is yes exactly when all words have rules
and the first places at which `mid`, `right` and `next` attach to branchings of `left` are in
this order, each taken in the branching where it stands.  So they seat in one disjunct if
`left` branches in one way only. -/
theorem connectsFour_iff :
    (g.connectsFour left mid right next = .ok true ↔
      (∀ w ∈ [left, mid, right, next], g.rules w ≠ []) ∧
      ∃ m r n, m < r ∧ r < n ∧
        (∃ b, FirstAt (meetsSole (g.rules mid)) (branchings (g.rules left)) b m) ∧
        (∃ b, FirstAt (meetsSole (g.rules right)) (branchings (g.rules left)) b r) ∧
        ∃ b, FirstAt (meetsAny (g.rules next)) (branchings (g.rules left)) b n) ∧
    (g.connectsFour left mid right next = .ok true →
      (∀ b ∈ branchings (g.rules left), ∀ b' ∈ branchings (g.rules left), b = b') →
        g.Seats left mid right next) := by
  have hiff : g.connectsFour left mid right next = .ok true ↔ _ :=
    connectsFour_eq_true_iff_firstPlace?
  simp only [firstPlace?_eq_some_iff] at hiff
  refine ⟨hiff, fun h hone => ?_⟩
  obtain ⟨-, m, r, n, hmr, hrn, ⟨b, hm⟩, ⟨b', hr⟩, b'', hn⟩ := hiff.1 h
  obtain rfl : b' = b := hone _ hr.mem _ hm.mem
  obtain rfl : b'' = b' := hone _ hn.mem _ hr.mem
  obtain ⟨rule, hrule, d, hd, rfl, -⟩ := mem_branchings.1 hm.mem
  exact ⟨rule, hrule, d, hd, m, r, n, hmr, hrn, hm.passes, hr.passes, hn.passes⟩

/-- `wants` with one branching, `needs` with two. -/
def wantsText : Text :=
  "wants: S- & O+ & T+ & I+; needs: (O+ & X+) or (Y+ & T+ & I+); it: O-; to: T-; eat: I-;".toList

/-- The lexicon of `wantsText`. -/
def wantsLexicon : Lexicon := (Lexicon.ofDictionary wantsText).toOption.getD .empty

/-- `it`, `to` and `eat` have their seats in the one disjunct of `wants`. -/
theorem connectsFour_iff_wants :
    let g := wantsLexicon.grammar
    g.connectsFour "wants".toList "it".toList "to".toList "eat".toList = .ok true ∧
      (∀ b ∈ branchings (g.rules "wants".toList), ∀ b' ∈ branchings (g.rules "wants".toList),
        b = b') ∧
      g.Seats "wants".toList "it".toList "to".toList "eat".toList := by
  intro g
  have hfour : g.connectsFour "wants".toList "it".toList "to".toList "eat".toList = .ok true := by
    cbv
  have hbranchings : branchings (g.rules "wants".toList)
      = [["O+".toList, "T+".toList, "I+".toList]] := by cbv
  have hone : ∀ b ∈ branchings (g.rules "wants".toList),
      ∀ b' ∈ branchings (g.rules "wants".toList), b = b' := by
    rw [hbranchings]
    simp
  exact ⟨hfour, hone, connectsFour_iff.2 hfour hone⟩

/-- `it` attaches to one disjunct of `needs`, `to` and `eat` to the other. -/
theorem connectsFour_over_two_disjuncts :
    let g := wantsLexicon.grammar
    g.connectsFour "needs".toList "it".toList "to".toList "eat".toList = .ok true ∧
      ¬g.Seats "needs".toList "it".toList "to".toList "eat".toList := by
  intro g
  refine ⟨by cbv, ?_⟩
  have hall : ((g.rules "needs".toList).all fun rule => rule.disjuncts.all fun d =>
      (d.rightward.all fun c => !meetsSole (g.rules "it".toList) c) ||
        d.rightward.all fun c => !meetsSole (g.rules "to".toList) c) = true := by
    cbv
  simp only [List.all_eq_true, Bool.or_eq_true, Bool.not_eq_true'] at hall
  rintro ⟨rule, hrule, d, hd, m, r, n, -, -, ⟨c, hc, hmid⟩, ⟨c', hc', hright⟩, -⟩
  rcases hall rule hrule d hd with h | h
  · rw [h c (List.mem_of_getElem? hc)] at hmid
    cases hmid
  · rw [h c' (List.mem_of_getElem? hc')] at hright
    cases hright

end LinkGrammar.Grammar
