/-
LinkGrammar/Proofs/Link/Attempt.lean

Which link between two words is found.

The search for a link runs through the rules of both words, through four passes, and in each
pass through two lists of parts.  These are five loops, one inside the other:

    rule of the earlier word, rule of the later word, pass, part, part

An *attempt* is one turn of the innermost loop.  The attempts are made in the lexicographic order
of five numbers, of which the last two, the places of the parts, change their order in the last
pass.  `FirstOf` says of a search that it gives what the first of its successful attempts shows;
there is one lemma for a loop around a search and one for a search after another.

Main result: two words that agree are linked exactly when some attempt succeeds, and the places
that are reported are those of the first one.
-/
import Mathlib
import LinkGrammar.Proofs.Connector.Compare
import LinkGrammar.Proofs.Link.Unknown

namespace LinkGrammar

/-! ### The first that succeeds -/

/-- The search with result `x` gives the view of a `t` that satisfies `P`, one with the least key,
or nothing if none satisfies it. -/
inductive FirstOf {ι β : Type} (P : ι → Prop) (key : ι → List Nat) (view : ι → β) :
    Option β → Prop
  | absent : (∀ t, ¬P t) → FirstOf P key view none
  | found (t : ι) : P t → (∀ s, P s → key t ≤ key s) → FirstOf P key view (some (view t))

namespace FirstOf

variable {ι κ α β γ : Type} {P Q : ι → Prop} {key : ι → List Nat} {view : ι → β} {x y : Option β}

/-- Conditions that say the same have the same first. -/
theorem congr (hPQ : ∀ t, Q t ↔ P t) (h : FirstOf P key view x) : FirstOf Q key view x := by
  cases h with
  | absent h => exact .absent fun t ht => h t ((hPQ t).1 ht)
  | found t ht hfirst => exact .found t ((hPQ t).2 ht) fun s hs => hfirst s ((hPQ s).1 hs)

/-- The same search with its attempts told in another way. -/
theorem reindex {R : κ → Prop} (key' : κ → List Nat) (view' : κ → γ) {g : β → γ} (e : ι → κ)
    (hR : ∀ k, R k ↔ ∃ t, e t = k ∧ P t) (hkey : ∀ s t, key s ≤ key t → key' (e s) ≤ key' (e t))
    (hview : ∀ t, view' (e t) = g (view t)) (h : FirstOf P key view x) :
    FirstOf R key' view' (x.map g) := by
  cases h with
  | absent h =>
    refine .absent fun k hk => ?_
    obtain ⟨t, -, ht⟩ := (hR k).1 hk
    exact h t ht
  | found t ht hfirst =>
    show FirstOf R key' view' (some (g (view t)))
    rw [← hview t]
    refine .found (e t) ((hR _).2 ⟨t, rfl, ht⟩) fun k hk => ?_
    obtain ⟨s, rfl, hs⟩ := (hR k).1 hk
    exact hkey t s (hfirst s hs)

/-- One attempt. -/
theorem test (p : Bool) (b : β) :
    FirstOf (fun _ : Unit => p = true) (fun _ => []) (fun _ => b) (if p then some b else none) := by
  cases p with
  | false => exact .absent fun _ h => Bool.false_ne_true h
  | true => exact .found () rfl fun _ _ => le_rfl

/-- A loop around a search: the place in the list of the loop comes first. -/
theorem loop (P : α → ι → Prop) (key : ι → List Nat) (view : ℕ × ι → β) {f : α × ℕ → Option β}
    {l : List α} {n : ℕ}
    (h : ∀ a i, (a, i) ∈ l.zipIdx n → FirstOf (P a) key (fun t => view (i, t)) (f (a, i))) :
    FirstOf (fun s : ℕ × ι => ∃ a, (a, s.1) ∈ l.zipIdx n ∧ P a s.2) (fun s => s.1 :: key s.2) view
      ((l.zipIdx n).findSome? f) := by
  induction l generalizing n with
  | nil =>
    refine .absent ?_
    rintro ⟨i, t⟩ ⟨a, ha, -⟩
    cases ha
  | cons a l ih =>
    have hhead := h a n List.mem_cons_self
    have htail := ih fun a' i hmem => h a' i (List.mem_cons_of_mem _ hmem)
    rw [List.zipIdx_cons, List.findSome?_cons]
    generalize f (a, n) = x at hhead
    cases hhead with
    | absent hnone =>
      refine htail.congr fun s => ?_
      simp only [List.mem_cons, Prod.mk.injEq, or_and_right, exists_or]
      refine or_iff_right ?_
      rintro ⟨a', ⟨rfl, -⟩, hs⟩
      exact hnone _ hs
    | found t ht hfirst =>
      refine .found (n, t) ⟨a, List.mem_cons_self, ht⟩ ?_
      rintro ⟨i, s⟩ ⟨a', hmem, hs⟩
      rcases List.mem_cons.1 hmem with heq | hmem
      · obtain ⟨rfl, rfl⟩ := Prod.mk.inj heq
        exact List.cons_le_cons _ (hfirst s hs)
      · have hlt : n < i := List.le_snd_of_mem_zipIdx hmem
        exact le_of_lt (List.Lex.rel hlt)

/-- A loop that does not count. -/
theorem loop_findSome? (P : α → ι → Prop) (key : ι → List Nat) (view : ℕ × ι → β)
    {f : α → Option β} {l : List α}
    (h : ∀ a i, (a, i) ∈ l.zipIdx → FirstOf (P a) key (fun t => view (i, t)) (f a)) :
    FirstOf (fun s : ℕ × ι => ∃ a, (a, s.1) ∈ l.zipIdx ∧ P a s.2) (fun s => s.1 :: key s.2) view
      (l.findSome? f) := by
  have hcount : l.zipIdx.findSome? (f ∘ Prod.fst) = l.findSome? f := by
    rw [← List.findSome?_map, List.zipIdx_map_fst]
  exact hcount ▸ loop P key view (f := f ∘ Prod.fst) h

/-- One search, and another if it finds nothing. -/
theorem orElse (hbefore : ∀ s t, P s → Q t → key s ≤ key t) (hx : FirstOf P key view x)
    (hy : FirstOf Q key view y) : FirstOf (fun t => P t ∨ Q t) key view (x <|> y) := by
  cases hx with
  | absent h => exact hy.congr fun t => or_iff_right (h t)
  | found t ht hfirst =>
    refine .found t (.inl ht) fun s hs => ?_
    rcases hs with hs | hs
    · exact hfirst s hs
    · exact hbefore t s ht hs

end FirstOf

/-! ### Pairs of parts -/

/-- The alternative `a` of the earlier word and the alternative `b` of the later one link. -/
structure Disjunct.LinksTo (a b : Disjunct) : Prop where
  outgoing : a.rightward ≠ []
  incoming : b.leftward ≠ []
  compatible : Connector.Compatible (a.rightward.map Connector.flip) b.leftward

/-- The test of two alternatives decides whether they link. -/
theorem alternativesLink_eq_true_iff {a b : Disjunct} :
    alternativesLink a b = true ↔ a.LinksTo b := by
  rw [alternativesLink, Connector.fitAll_eq_true_iff]
  constructor
  · intro h
    refine ⟨?_, ?_, h⟩
    · intro hnil
      rw [hnil] at h
      exact h.ne_nil_left rfl
    · intro hnil
      rw [hnil] at h
      exact h.ne_nil_right rfl
  · exact Disjunct.LinksTo.compatible

/-- Which parts of two rules are paired. -/
inductive Pass where
  /-- required part with required part -/
  | required
  /-- optional group with optional group -/
  | groups
  /-- optional group, without what costs, with required part -/
  | groupToRequired
  /-- required part with optional group, without what costs -/
  | requiredToGroup
  deriving DecidableEq

namespace Pass

/-- The place among the passes. -/
def rank : Pass → Nat
  | required => 0
  | groups => 1
  | groupToRequired => 2
  | requiredToGroup => 3

/-- The parts of the earlier word, each with its alternatives.  Every alternative of a required
part is a part for itself. -/
def leftParts (p : Pass) (s : Shape) : List (List Disjunct) :=
  match p with
  | required | requiredToGroup => s.required.map fun a => [a]
  | groups => s.groups
  | groupToRequired => s.uncosted

/-- The parts of the later word. -/
def rightParts (p : Pass) (s : Shape) : List (List Disjunct) :=
  match p with
  | required | groupToRequired => s.required.map fun a => [a]
  | groups => s.groups
  | requiredToGroup => s.uncosted

/-- The places of two parts in the order in which they vary, the slower one first. -/
def loops (p : Pass) (k : Link) : List Nat :=
  match p with
  | required | groups | groupToRequired => [k.left, k.right]
  | requiredToGroup => [k.right, k.left]

/-- The parts at the places of `k`, which are counted from 1, have alternatives that link. -/
def Joins (p : Pass) (l r : Shape) (k : Link) : Prop :=
  ∃ as, (as, k.left) ∈ (p.leftParts l).zipIdx 1 ∧
    ∃ bs, (bs, k.right) ∈ (p.rightParts r).zipIdx 1 ∧ ∃ a ∈ as, ∃ b ∈ bs, a.LinksTo b

variable {l r : Shape}

theorem mem_zipIdx_map {α β : Type} {f : α → β} {as : List α} {n : Nat} {b : β} {i : Nat} :
    (b, i) ∈ (as.map f).zipIdx n ↔ ∃ a, (a, i) ∈ as.zipIdx n ∧ f a = b := by
  rw [List.zipIdx_map, List.mem_map]
  constructor
  · rintro ⟨⟨a, j⟩, hmem, heq⟩
    obtain ⟨rfl, rfl⟩ := Prod.mk.inj heq
    exact ⟨a, hmem, rfl⟩
  · rintro ⟨a, hmem, rfl⟩
    exact ⟨(a, i), hmem, rfl⟩

/-- What the first pass looks for. -/
theorem joins_required (k : Link) : required.Joins l r k ↔
    ∃ a, (a, k.left) ∈ l.required.zipIdx 1 ∧ ∃ b, (b, k.right) ∈ r.required.zipIdx 1 ∧
      alternativesLink a b = true := by
  simp [Joins, leftParts, rightParts, mem_zipIdx_map, alternativesLink_eq_true_iff]

/-- What the second pass looks for. -/
theorem joins_groups (k : Link) : groups.Joins l r k ↔
    ∃ as, (as, k.left) ∈ l.groups.zipIdx 1 ∧ ∃ bs, (bs, k.right) ∈ r.groups.zipIdx 1 ∧
      (as.any fun a => bs.any (alternativesLink a)) = true := by
  simp [Joins, leftParts, rightParts, alternativesLink_eq_true_iff]

/-- What the third pass looks for. -/
theorem joins_groupToRequired (k : Link) : groupToRequired.Joins l r k ↔
    ∃ as, (as, k.left) ∈ l.uncosted.zipIdx 1 ∧ ∃ b, (b, k.right) ∈ r.required.zipIdx 1 ∧
      (as.any fun a => alternativesLink a b) = true := by
  simp [Joins, leftParts, rightParts, mem_zipIdx_map, alternativesLink_eq_true_iff]

/-- What the fourth pass looks for. -/
theorem joins_requiredToGroup (k : Link) : requiredToGroup.Joins l r k ↔
    ∃ bs, (bs, k.right) ∈ r.uncosted.zipIdx 1 ∧ ∃ a, (a, k.left) ∈ l.required.zipIdx 1 ∧
      (bs.any fun b => alternativesLink a b) = true := by
  simp only [Joins, leftParts, rightParts, mem_zipIdx_map, List.any_eq_true,
    alternativesLink_eq_true_iff]
  constructor
  · rintro ⟨-, ⟨a, ha, rfl⟩, bs, hbs, a', ha', b, hb, hlink⟩
    obtain rfl := List.mem_singleton.1 ha'
    exact ⟨bs, hbs, a', ha, b, hb, hlink⟩
  · rintro ⟨bs, hbs, a, ha, b, hb, hlink⟩
    exact ⟨[a], ⟨a, ha, rfl⟩, bs, hbs, a, List.mem_singleton_self a, b, hb, hlink⟩

end Pass

/-! ### The loops of the search -/

/-- The pair that is found is the first that passes the test. -/
theorem firstOf_firstPair? {α β : Type} (test : α → β → Bool) (as : List α) (bs : List β) :
    FirstOf (fun s : ℕ × ℕ × Unit => ∃ a, (a, s.1) ∈ as.zipIdx 1 ∧
        ∃ b, (b, s.2.1) ∈ bs.zipIdx 1 ∧ test a b = true)
      (fun s => [s.1, s.2.1]) (fun s => (s.1, s.2.1)) (Link.firstPair? test as bs) := by
  apply FirstOf.loop (fun a (s : ℕ × Unit) => ∃ b, (b, s.1) ∈ bs.zipIdx 1 ∧ test a b = true)
    fun s => [s.1]
  intro a i _
  apply FirstOf.loop (fun b (_ : Unit) => test a b = true) fun _ => []
  intro b j _
  exact .test (test a b) (i, j)

/-- A pass that runs through pairs of parts, told by the links that they give. -/
theorem firstOf_pass {α β : Type} {l r : Shape} (p : Pass) {test : α → β → Bool} {as : List α}
    {bs : List β} (toLink : ℕ × ℕ → Link) (hsurj : ∀ k, ∃ i j, toLink (i, j) = k)
    (hloops : ∀ i j, p.loops (toLink (i, j)) = [i, j])
    (hjoins : ∀ i j, p.Joins l r (toLink (i, j)) ↔
      ∃ a, (a, i) ∈ as.zipIdx 1 ∧ ∃ b, (b, j) ∈ bs.zipIdx 1 ∧ test a b = true) :
    FirstOf (fun s : Pass × Link => s.1 = p ∧ s.1.Joins l r s.2)
      (fun s => s.1.rank :: s.1.loops s.2) Prod.snd
      ((Link.firstPair? test as bs).map toLink) := by
  apply (firstOf_firstPair? test as bs).reindex (fun s => s.1.rank :: s.1.loops s.2) Prod.snd
    fun s => (p, toLink (s.1, s.2.1))
  · rintro ⟨q, k⟩
    constructor
    · rintro ⟨hq, h⟩
      obtain rfl : q = p := hq
      obtain ⟨i, j, rfl⟩ := hsurj k
      exact ⟨(i, j, ()), rfl, (hjoins i j).1 h⟩
    · rintro ⟨⟨i, j, u⟩, heq, h⟩
      obtain ⟨rfl, rfl⟩ := Prod.mk.inj heq
      exact ⟨rfl, (hjoins i j).2 h⟩
  · rintro ⟨i, j, u⟩ ⟨i', j', u'⟩ hle
    show p.rank :: p.loops (toLink (i, j)) ≤ p.rank :: p.loops (toLink (i', j'))
    rw [hloops, hloops]
    exact List.cons_le_cons _ hle
  · exact fun _ => rfl

/-- The four passes, one after the other. -/
theorem firstOf_between? (l r : Shape) :
    FirstOf (fun s : Pass × Link => s.1.Joins l r s.2) (fun s => s.1.rank :: s.1.loops s.2)
      Prod.snd (Link.between? l r) := by
  have hsurj : ∀ k, ∃ i j, Link.mk i j = k := fun k => ⟨k.left, k.right, rfl⟩
  have hsurj' : ∀ k, ∃ j i, Link.mk i j = k := fun k => ⟨k.right, k.left, rfl⟩
  have hrequired := firstOf_pass .required (fun s => ⟨s.1, s.2⟩) hsurj
    (fun _ _ => rfl) fun i j => Pass.joins_required (l := l) (r := r) ⟨i, j⟩
  have hgroups := firstOf_pass .groups (fun s => ⟨s.1, s.2⟩) hsurj
    (fun _ _ => rfl) fun i j => Pass.joins_groups (l := l) (r := r) ⟨i, j⟩
  have hgroupToRequired := firstOf_pass .groupToRequired (fun s => ⟨s.1, s.2⟩) hsurj
    (fun _ _ => rfl) fun i j => Pass.joins_groupToRequired (l := l) (r := r) ⟨i, j⟩
  have hrequiredToGroup := firstOf_pass .requiredToGroup (fun s => ⟨s.2, s.1⟩) hsurj'
    (fun _ _ => rfl) fun j i => Pass.joins_requiredToGroup (l := l) (r := r) ⟨i, j⟩
  -- the rank of a pass comes first, so nothing that a later pass finds is earlier
  have hbefore : ∀ {p : Pass} {s t : Pass × Link}, s.1 = p → p.rank < t.1.rank →
      s.1.rank :: s.1.loops s.2 ≤ t.1.rank :: t.1.loops t.2 := by
    rintro _ s t rfl hlt
    exact le_of_lt (List.Lex.rel hlt)
  have hlast := FirstOf.orElse (fun _ _ hs ht => hbefore hs.1 (by grind [Pass.rank]))
    hgroupToRequired hrequiredToGroup
  have hrest := FirstOf.orElse (fun _ _ hs ht => hbefore hs.1 (by grind [Pass.rank])) hgroups hlast
  have hall := FirstOf.orElse (fun _ _ hs ht => hbefore hs.1 (by grind [Pass.rank])) hrequired hrest
  refine hall.congr ?_
  rintro ⟨p, k⟩
  cases p <;> simp

/-- Some pair of parts of the two shapes has alternatives that link. -/
def Linkable (l r : Shape) : Prop :=
  ∃ p : Pass, ∃ as ∈ p.leftParts l, ∃ bs ∈ p.rightParts r, ∃ a ∈ as, ∃ b ∈ bs, a.LinksTo b

/-- Where a pass finds a link there is one. -/
theorem Pass.Joins.linkable {l r : Shape} {p : Pass} {k : Link} (h : p.Joins l r k) :
    Linkable l r := by
  obtain ⟨as, has, bs, hbs, h⟩ := h
  exact ⟨p, as, List.fst_mem_of_mem_zipIdx has, bs, List.fst_mem_of_mem_zipIdx hbs, h⟩

/-! ### Attempts -/

/-- Two rules, counted from 0, a pass, and the places of two parts. -/
structure Attempt where
  leftRule : Nat
  rightRule : Nat
  pass : Pass
  link : Link

namespace Attempt

/-- Attempts are made in the lexicographic order of these numbers. -/
def key (t : Attempt) : List Nat := t.leftRule :: t.rightRule :: t.pass.rank :: t.pass.loops t.link

/-- The attempt is one of the search for a link from `left` to `right`, and it finds one. -/
def Succeeds (g : Grammar) (left right : Text) (t : Attempt) : Prop :=
  ∃ l, (l, t.leftRule) ∈ (g.rules left).zipIdx ∧
    ∃ r, (r, t.rightRule) ∈ (g.rules right).zipIdx ∧ t.pass.Joins l.shape r.shape t.link

/-- The attempt is the first that succeeds. -/
structure First (g : Grammar) (left right : Text) (t : Attempt) : Prop where
  succeeds : t.Succeeds g left right
  least : ∀ s : Attempt, s.Succeeds g left right → t.key ≤ s.key

/-- The places of the attempt are places of parts of its rules; rules that are stated by formulas
have as many groups without what costs as they have groups. -/
def InRange (g : Grammar) (left right : Text) (t : Attempt) : Prop :=
  ∃ l r, (l, t.leftRule) ∈ (g.rules left).zipIdx ∧ (r, t.rightRule) ∈ (g.rules right).zipIdx ∧
    t.link.left ∈ Set.Icc 1 (t.pass.leftParts l.shape).length ∧
    t.link.right ∈ Set.Icc 1 (t.pass.rightParts r.shape).length ∧
    (g.Stated → l.shape.uncosted.length = l.shape.groups.length ∧
      r.shape.uncosted.length = r.shape.groups.length)

end Attempt

theorem mem_zipIdx_of_mem {α : Type} {l : List α} {a : α} (h : a ∈ l) (n : ℕ) :
    ∃ i, (a, i) ∈ l.zipIdx n := by
  rw [← List.zipIdx_map_fst n l] at h
  obtain ⟨⟨a, i⟩, hmem, rfl⟩ := List.mem_map.1 h
  exact ⟨i, hmem⟩

/-- Places are counted from 1 to the length. -/
theorem place_mem_Icc {α : Type} {l : List α} {a : α} {i : ℕ} (h : (a, i) ∈ l.zipIdx 1) :
    i ∈ Set.Icc 1 l.length := by
  have hle := List.le_snd_of_mem_zipIdx h
  have hlt := List.snd_lt_add_of_mem_zipIdx h
  exact ⟨hle, by omega⟩

/-- Every group has a form without what costs. -/
theorem length_uncosted_of_ofText {t : Text} {rule : Rule} (h : Rule.ofText t = .ok rule) :
    rule.shape.uncosted.length = rule.shape.groups.length := by
  obtain ⟨f, hmade⟩ := exists_madeOf_of_ofText h
  rw [hmade.shape]
  exact (List.length_map _).trans (List.length_map _).symm

/-- Some attempt succeeds when rules of the two words can be linked. -/
theorem exists_succeeds_iff {g : Grammar} {left right : Text} :
    (∃ t : Attempt, t.Succeeds g left right) ↔
      ∃ l ∈ g.rules left, ∃ r ∈ g.rules right, Linkable l.shape r.shape := by
  constructor
  · rintro ⟨t, l, hl, r, hr, h⟩
    exact ⟨l, List.fst_mem_of_mem_zipIdx hl, r, List.fst_mem_of_mem_zipIdx hr, h.linkable⟩
  · rintro ⟨l, hl, r, hr, p, as, has, bs, hbs, h⟩
    obtain ⟨i, hi⟩ := mem_zipIdx_of_mem hl 0
    obtain ⟨j, hj⟩ := mem_zipIdx_of_mem hr 0
    obtain ⟨m, hm⟩ := mem_zipIdx_of_mem has 1
    obtain ⟨n, hn⟩ := mem_zipIdx_of_mem hbs 1
    exact ⟨⟨i, j, p, m, n⟩, l, hi, r, hj, as, hm, bs, hn, h⟩

/-- An attempt that succeeds is one of those that are made. -/
theorem Attempt.Succeeds.inRange {g : Grammar} {left right : Text} {t : Attempt}
    (h : t.Succeeds g left right) : t.InRange g left right := by
  obtain ⟨l, hl, r, hr, as, has, bs, hbs, -⟩ := h
  refine ⟨l, r, hl, hr, place_mem_Icc has, place_mem_Icc hbs, fun hg => ?_⟩
  obtain ⟨_, hstated⟩ := hg left l (List.fst_mem_of_mem_zipIdx hl)
  obtain ⟨_, hstated'⟩ := hg right r (List.fst_mem_of_mem_zipIdx hr)
  exact ⟨length_uncosted_of_ofText hstated, length_uncosted_of_ofText hstated'⟩

/-- The loop over the rules of the later word. -/
theorem firstOf_rules (l : Rule) (rs : List Rule) :
    FirstOf (fun s : ℕ × Pass × Link =>
        ∃ r : Rule, (r, s.1) ∈ rs.zipIdx ∧ s.2.1.Joins l.shape r.shape s.2.2)
      (fun s => s.1 :: s.2.1.rank :: s.2.1.loops s.2.2) (fun s => s.2.2)
      (rs.findSome? fun r => Link.between? l.shape r.shape) := by
  apply FirstOf.loop_findSome?
    (fun (r : Rule) (s : Pass × Link) => s.1.Joins l.shape r.shape s.2)
    fun s => s.1.rank :: s.1.loops s.2
  intro r _ _
  exact firstOf_between? l.shape r.shape

/-- All loops of the search. -/
theorem firstOf_attempts (g : Grammar) (left right : Text) :
    FirstOf (Attempt.Succeeds g left right) Attempt.key Attempt.link
      ((g.rules left).findSome? fun l =>
        (g.rules right).findSome? fun r => Link.between? l.shape r.shape) := by
  have hloops := FirstOf.loop_findSome? (l := g.rules left)
    (fun (l : Rule) (s : ℕ × Pass × Link) =>
      ∃ r, (r, s.1) ∈ (g.rules right).zipIdx ∧ s.2.1.Joins l.shape r.shape s.2.2)
    (fun s => s.1 :: s.2.1.rank :: s.2.1.loops s.2.2) (fun s => s.2.2.2)
    fun l _ _ => firstOf_rules l (g.rules right)
  let attempt : ℕ × ℕ × Pass × Link → Attempt := fun s => ⟨s.1, s.2.1, s.2.2.1, s.2.2.2⟩
  have hsucceeds : ∀ t : Attempt, t.Succeeds g left right ↔ ∃ s, attempt s = t ∧
      ∃ l, (l, s.1) ∈ (g.rules left).zipIdx ∧
        ∃ r, (r, s.2.1) ∈ (g.rules right).zipIdx ∧ s.2.2.1.Joins l.shape r.shape s.2.2.2 := by
    intro t
    constructor
    · exact fun h => ⟨(t.leftRule, t.rightRule, t.pass, t.link), rfl, h⟩
    · rintro ⟨s, rfl, h⟩
      exact h
  have hattempts := hloops.reindex Attempt.key Attempt.link (g := id) attempt hsucceeds
    (fun _ _ hle => hle) fun _ => rfl
  rwa [Option.map_id_fun, id_eq] at hattempts

namespace Grammar

variable {g : Grammar} {left right : Text}

/-- What is asked for of two words before their rules are compared. -/
structure Agrees (g : Grammar) (left right : Text) : Prop where
  ne : left ≠ right
  not_article_is : ¬(left = ['a'] ∧ right = ['i', 's'])
  no_clash : left = ['a'] ∨ right = ['a'] ∨ g.clash left right = false ∧ g.clash right left = false

/-- The test of two words decides whether they agree. -/
theorem agree_eq_true_iff : g.agree left right = true ↔ g.Agrees left right := by
  unfold agree
  split
  · next hnever =>
    refine iff_of_false Bool.false_ne_true ?_
    rintro ⟨hne, his, -⟩
    simp [hne] at hnever
    exact his hnever
  · next hmay =>
    simp only [Bool.or_eq_true, Bool.and_eq_true, decide_eq_true_eq, not_or] at hmay
    split
    · next harticle =>
      simp only [Bool.or_eq_true, decide_eq_true_eq] at harticle
      refine iff_of_true rfl ⟨hmay.1, hmay.2, ?_⟩
      exact harticle.imp_right .inl
    · next harticle =>
      simp only [Bool.or_eq_true, decide_eq_true_eq, not_or] at harticle
      have hclash : (!(g.clash left right || g.clash right left)) = true ↔
          g.clash left right = false ∧ g.clash right left = false := by simp
      rw [hclash]
      constructor
      · exact fun h => ⟨hmay.1, hmay.2, .inr (.inr h)⟩
      · exact fun h => (h.no_clash.resolve_left harticle.1).resolve_left harticle.2

/-- Of words with rules the search gives an answer. -/
theorem firstLink?_of_known (hleft : g.rules left ≠ []) (hright : g.rules right ≠ []) :
    g.firstLink? left right = .ok (if g.agree left right then
      (g.rules left).findSome? fun l =>
        (g.rules right).findSome? fun r => Link.between? l.shape r.shape
      else none) := by
  refine bind_eq_ok.2 ⟨_, knownRules_eq_ok_iff.2 ⟨rfl, hleft⟩, ?_⟩
  refine bind_eq_ok.2 ⟨_, knownRules_eq_ok_iff.2 ⟨rfl, hright⟩, ?_⟩
  split
  · rfl
  · rfl

/-- The result of a search for a link: the first attempt that succeeds, if the words agree. -/
theorem firstLink?_cases (hleft : g.rules left ≠ []) (hright : g.rules right ≠ []) :
    (g.Agrees left right ∧
      ∃ t : Attempt, t.First g left right ∧ g.firstLink? left right = .ok (some t.link)) ∨
    ((g.Agrees left right → ∀ t : Attempt, ¬t.Succeeds g left right) ∧
      g.firstLink? left right = .ok none) := by
  rw [firstLink?_of_known hleft hright, ← agree_eq_true_iff]
  by_cases hagree : g.agree left right = true
  · rw [if_pos hagree]
    have hsearch := firstOf_attempts g left right
    generalize ((g.rules left).findSome? fun l =>
      (g.rules right).findSome? fun r => Link.between? l.shape r.shape) = x at hsearch ⊢
    cases hsearch with
    | absent h => exact .inr ⟨fun _ => h, rfl⟩
    | found t ht hfirst => exact .inl ⟨hagree, t, ⟨ht, hfirst⟩, rfl⟩
  · rw [if_neg hagree]
    exact .inr ⟨fun h => absurd h hagree, rfl⟩

/-- **The search for a link finds the first one and misses none.**  Of words that have rules, one
links to the other exactly when the two agree and some pair of parts of their rules, one of those
that the passes make, has alternatives that link.  The places that are reported, on either side,
are those of the first such pair, and they are places of parts; without a link they are 0. -/
theorem connects_iff_attempt (hleft : g.rules left ≠ []) (hright : g.rules right ≠ []) :
    (g.connects left right = .ok true ↔ g.Agrees left right ∧
      ∃ l ∈ g.rules left, ∃ r ∈ g.rules right, Linkable l.shape r.shape) ∧
    (g.connects left right = .ok true ∧
        (∃ t : Attempt, t.First g left right ∧ t.InRange g left right ∧
          ∀ side, g.connectsAt side left right = .ok (true, side.place t.link)) ∨
      g.connects left right = .ok false ∧
        ∀ side, g.connectsAt side left right = .ok (false, 0)) := by
  rw [← exists_succeeds_iff]
  rcases firstLink?_cases hleft hright with ⟨hagree, t, hfirst, hlink⟩ | ⟨hnone, hlink⟩
  · have hconnects : g.connects left right = .ok true := map_eq_ok.2 ⟨_, hlink, rfl⟩
    refine ⟨iff_of_true hconnects ⟨hagree, t, hfirst.succeeds⟩, .inl ⟨hconnects, t, hfirst,
      hfirst.succeeds.inRange, fun side => ?_⟩⟩
    exact map_eq_ok.2 ⟨_, hlink, rfl⟩
  · have hconnects : g.connects left right = .ok false := map_eq_ok.2 ⟨_, hlink, rfl⟩
    refine ⟨iff_of_false (by simp [hconnects]) ?_, .inr ⟨hconnects, fun side => ?_⟩⟩
    · rintro ⟨hagree, t, ht⟩
      exact hnone hagree t ht
    · exact map_eq_ok.2 ⟨_, hlink, rfl⟩

/-- The reported places tell the link. -/
theorem link_eq_of_connectsAt {k : Link} {i j : ℕ}
    (hat : ∀ side : Side, g.connectsAt side left right = .ok (true, side.place k))
    (hleft : g.connectsAt .left left right = .ok (true, i))
    (hright : g.connectsAt .right left right = .ok (true, j)) : k = ⟨i, j⟩ := by
  obtain ⟨-, rfl⟩ := Prod.mk.inj (Except.ok.inj ((hat .left).symm.trans hleft))
  obtain ⟨-, rfl⟩ := Prod.mk.inj (Except.ok.inj ((hat .right).symm.trans hright))
  rfl

/-- The groups of `meets` come in the other order than the alternatives of `sends`. -/
def crossedText : Text := "sends: X+ or Y+; meets: {Y-} & {X-};".toList

/-- The lexicon of `crossedText`. -/
def crossedLexicon : Lexicon := (Lexicon.ofDictionary crossedText).toOption.getD .empty

theorem rules_sends_ne_nil : crossedLexicon.grammar.rules "sends".toList ≠ [] := by
  have hsome : (crossedLexicon.grammar.rules "sends".toList).isEmpty = false := by cbv
  exact List.isEmpty_eq_false_iff.1 hsome

theorem rules_meets_ne_nil : crossedLexicon.grammar.rules "meets".toList ≠ [] := by
  have hsome : (crossedLexicon.grammar.rules "meets".toList).isEmpty = false := by cbv
  exact List.isEmpty_eq_false_iff.1 hsome

/-- The alternatives link crosswise, which gives each side another place. -/
theorem connectsAt_crossed :
    crossedLexicon.grammar.connectsAt .left "sends".toList "meets".toList = .ok (true, 2) ∧
      crossedLexicon.grammar.connectsAt .right "sends".toList "meets".toList = .ok (true, 1) :=
  ⟨by cbv, by cbv⟩

/-- In the last pass the groups of the later word vary slowest, so the first link is that of the
second alternative with the first group. -/
theorem connects_iff_attempt_crossed :
    (crossedLexicon.grammar.rules "sends".toList ≠ [] ∧
      crossedLexicon.grammar.rules "meets".toList ≠ []) ∧
      ∃ t : Attempt, t.First crossedLexicon.grammar "sends".toList "meets".toList ∧
        t.InRange crossedLexicon.grammar "sends".toList "meets".toList ∧ t.link = ⟨2, 1⟩ := by
  refine ⟨⟨rules_sends_ne_nil, rules_meets_ne_nil⟩, ?_⟩
  obtain ⟨hatLeft, hatRight⟩ := connectsAt_crossed
  rcases (connects_iff_attempt rules_sends_ne_nil rules_meets_ne_nil).2 with
    ⟨-, t, hfirst, hrange, hat⟩ | ⟨-, hat⟩
  · exact ⟨t, hfirst, hrange, link_eq_of_connectsAt hat hatLeft hatRight⟩
  · have hclash := (hat .left).symm.trans hatLeft
    injection hclash with hpair
    injection hpair with hfalse
    cases hfalse

end Grammar

end LinkGrammar
