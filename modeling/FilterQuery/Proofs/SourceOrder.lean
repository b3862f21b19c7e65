/-
FilterQuery.Proofs.SourceOrder — mistakes are reported in the order of the
text.

Each step reports from many places: at the current token, at the head of a
call whose arguments are read already, at the end of the text. That
the reports still come in order is seen from the place where reading
stands (`cursor`). Nothing that has been reported stands behind it, and
every step moves it forward and reports between its old and its new place
(`State.UpTo`). The nodes that a step leaves lie between these two places as
well, and since a separator is passed between two arguments, no two nodes
stand at the same place (`Between`).

Binding reports at nodes only, and goes through them in the order of the
tree (`Binding.node_sublist`). The order of lexical errors has one
exception: what is wrong inside a string literal is found before it is
known that the literal is never closed (`LexError.Precedes`).
-/
import FilterQuery.Proofs.Positions

namespace FilterQuery

/-! ## 1. The nodes of a tree in order -/

namespace Node

mutual

/-- The positions of the nodes of a tree, each before those of its arguments. -/
def positions : Node → List Position
  | call _ args p => p :: positionsAmong args
  | field _ p => [p]
  | literal _ p => [p]
  | invalid p => [p]

/-- The same for trees that stand side by side. -/
def positionsAmong : List Node → List Position
  | [] => []
  | n :: ns => n.positions ++ positionsAmong ns

end

theorem position_sublist_positions (n : Node) : [n.position].Sublist n.positions := by
  cases n <;> simp [positions, position]

theorem preorderListOnto_positions {ns : List Node}
    (h : ∀ n ∈ ns, ∀ depth found, (preorderOnto depth found n).map (fun x => x.2.position) =
      n.positions.reverse ++ found.map fun x => x.2.position) (depth : Nat)
    (found : List Placed) :
    (preorderListOnto depth found ns).map (fun x => x.2.position) =
      (positionsAmong ns).reverse ++ found.map fun x => x.2.position := by
  induction ns generalizing found with
  | nil => rfl
  | cons n ns ih =>
    rw [preorderListOnto, ih (fun m hm => h m (List.mem_cons_of_mem n hm)),
      h n List.mem_cons_self, positionsAmong, List.reverse_append, List.append_assoc]

theorem preorderOnto_positions (n : Node) (depth : Nat) (found : List Placed) :
    (preorderOnto depth found n).map (fun x => x.2.position) =
      n.positions.reverse ++ found.map fun x => x.2.position := by
  induction n using Node.induction generalizing depth found with
  | call op args p ih =>
    rw [preorderOnto, preorderListOnto_positions ih, positions, List.reverse_cons,
      List.append_assoc]
    rfl
  | field name p => rfl
  | literal value p => rfl
  | invalid p => rfl

/-- The nodes of a tree have these positions in preorder. -/
theorem preorder_positions (n : Node) : n.preorder.map (fun x => x.2.position) = n.positions := by
  rw [preorder, List.map_reverse, preorderOnto_positions, List.map_nil, List.append_nil,
    List.reverse_reverse]

end Node

/-- Positions in strict order, none before the first offset and none behind the
second. -/
structure Between (low high : Nat) (ps : List Position) : Prop where
  ordered : ps.Pairwise fun p q => p.offset < q.offset
  low_le : ∀ p ∈ ps, low ≤ p.offset
  le_high : ∀ p ∈ ps, p.offset ≤ high

namespace Between

variable {low mid high : Nat} {ps qs : List Position}

theorem nil (low high : Nat) : Between low high [] :=
  ⟨List.Pairwise.nil, List.forall_mem_nil _, List.forall_mem_nil _⟩

theorem singleton {p : Position} (hlow : low ≤ p.offset) (hhigh : p.offset ≤ high) :
    Between low high [p] := by
  refine ⟨List.pairwise_singleton _ p, ?_, ?_⟩ <;> simpa

theorem mono {high' : Nat} (h : Between low high ps) (hle : high ≤ high') :
    Between low high' ps :=
  ⟨h.ordered, h.low_le, fun p hp => Nat.le_trans (h.le_high p hp) hle⟩

/-- Positions that lie behind others are appended to them. -/
theorem append {next : Nat} (hp : Between low mid ps) (hq : Between next high qs)
    (hlow : low ≤ mid) (hlt : mid < next) (hhigh : next ≤ high) :
    Between low high (ps ++ qs) where
  ordered := by
    refine List.pairwise_append.mpr ⟨hp.ordered, hq.ordered, ?_⟩
    intro p hmem q hmem'
    exact Nat.lt_of_le_of_lt (hp.le_high p hmem) (Nat.lt_of_lt_of_le hlt (hq.low_le q hmem'))
  low_le := by
    intro p hmem
    rcases List.mem_append.mp hmem with hmem | hmem
    · exact hp.low_le p hmem
    · have := hq.low_le p hmem
      omega
  le_high := by
    intro p hmem
    rcases List.mem_append.mp hmem with hmem | hmem
    · have := hp.le_high p hmem
      omega
    · exact hq.le_high p hmem

end Between

/-! ## 2. The place where reading stands -/

namespace Parse

/-- The offset of the first of some tokens, or of the end of the text. -/
def cursor (stop : Position) : List Token → Nat
  | [] => stop.offset
  | t :: _ => t.position.offset

/-- Whether each token stands before the next one, and the last before the end. -/
def InOrder (stop : Position) : List Token → Prop
  | [] => True
  | t :: ts => t.position.offset < cursor stop ts ∧ InOrder stop ts

/-- What is left is in order, and reading does not go back to get there. -/
theorem InOrder.suffix {stop : Position} {ts us : List Token} (h : InOrder stop ts)
    (hsuffix : us <:+ ts) : InOrder stop us ∧ cursor stop ts ≤ cursor stop us := by
  induction ts with
  | nil =>
    obtain rfl := List.suffix_nil.mp hsuffix
    exact ⟨h, Nat.le_refl _⟩
  | cons t ts ih =>
    rcases List.suffix_cons_iff.mp hsuffix with rfl | hsuffix
    · exact ⟨h, Nat.le_refl _⟩
    · obtain ⟨horder, hle⟩ := ih h.2 hsuffix
      exact ⟨horder, Nat.le_trans (Nat.le_of_lt h.1) hle⟩

/-- Where a token is passed, reading moves forward. -/
theorem InOrder.cursor_lt {stop : Position} {t : Token} {ts us : List Token}
    (h : InOrder stop (t :: ts)) (hsuffix : us <:+ ts) : t.position.offset < cursor stop us :=
  Nat.lt_of_lt_of_le h.1 (h.2.suffix hsuffix).2

theorem synchronize_suffix (depth : Nat) (ts : List Token) : synchronize depth ts <:+ ts := by
  induction ts generalizing depth with
  | nil => exact List.suffix_refl _
  | cons t ts ih =>
    have hlater : ∀ depth, synchronize depth ts <:+ t :: ts :=
      fun depth => (ih depth).trans (List.suffix_cons t ts)
    unfold synchronize
    split
    · exact hlater _
    · exact List.suffix_refl _
    · exact hlater _
    · exact List.suffix_refl _
    · exact hlater _

theorem skipBalanced_suffix (depth : Nat) (ts : List Token) : skipBalanced depth ts <:+ ts := by
  induction ts generalizing depth with
  | nil => exact List.suffix_refl _
  | cons t ts ih =>
    have hlater : ∀ depth, skipBalanced depth ts <:+ t :: ts :=
      fun depth => (ih depth).trans (List.suffix_cons t ts)
    unfold skipBalanced
    split
    · exact hlater _
    · split
      · exact List.suffix_cons t ts
      · exact hlater _
    · exact hlater _

theorem separator_suffix (b : Bounds) (s : State) : (separator b s).2.rest <:+ s.rest := by
  have hsync := synchronize_suffix 0 s.rest
  cases h : synchronize 0 s.rest with
  | nil =>
    rw [separator_of_synchronize_nil h, State.unexpected_rest]
    exact List.nil_suffix
  | cons t ts =>
    rw [separator_of_synchronize_cons h]
    rw [h] at hsync
    exact (List.suffix_cons t ts).trans hsync

/-- Between two arguments a token is passed. -/
theorem separator_cursor_lt {b : Bounds} {s : State} (horder : InOrder b.stop s.rest)
    (hmore : (separator b s).1 = true) :
    cursor b.stop s.rest < cursor b.stop (separator b s).2.rest := by
  have hsync := horder.suffix (synchronize_suffix 0 s.rest)
  cases h : synchronize 0 s.rest with
  | nil =>
    rw [separator_of_synchronize_nil h] at hmore
    exact absurd hmore Bool.false_ne_true
  | cons t ts =>
    rw [separator_of_synchronize_cons h]
    rw [h] at hsync
    exact Nat.lt_of_le_of_lt hsync.2 hsync.1.1

theorem call_suffix (b : Bounds) (depth : Nat) (head : Token) (s : State) :
    (call b depth head s).2.rest <:+ s.rest := by
  rw [(rest_eq b).1 depth head s]
  split
  · exact skipBalanced_suffix 0 s.rest
  · exact List.suffix_refl _

theorem argument_suffix (b : Bounds) (depth : Nat) (s : State) :
    (argument b depth s).2.rest <:+ s.rest := by
  apply argument_cases (A := fun _ s r => r.2.rest <:+ s.rest) depth s
  case ended =>
    intro _
    exact ⟨[], State.unexpected_rest s b .argument⟩
  case nested =>
    intro t ts hs _
    rw [hs]
    exact (call_suffix b (depth + 1) t { s with rest := ts }).trans (List.suffix_cons t ts)
  case word =>
    intro t ts hs _ _
    rw [hs]
    exact List.suffix_cons t ts
  case missing => exact fun _ _ _ _ => List.suffix_refl _
  case group => exact fun _ _ _ _ => synchronize_suffix 0 s.rest

theorem arguments_suffix (b : Bounds) (depth : Nat) (s : State) :
    (arguments b depth [] s).2.rest <:+ s.rest := by
  rw [(rest_eq b).2.2 depth s]
  exact skipBalanced_suffix 1 s.rest

/-! ## 3. Nodes -/

theorem positions_wordNode (t : Token) :
    (Grammar.Phrase.wordNode t).positions = [t.position] := by
  obtain ⟨kind, lexeme, p⟩ := t
  cases kind <;> rfl

/-- A call whose arguments lie behind its head lies there as a whole, whether it is
kept or not. -/
theorem between_callNode {head : Token} {args : List Node} {low high : Nat}
    (hlt : head.position.offset < low) (hargs : Between low high (Node.positionsAmong args))
    (hle : low ≤ high) : Between head.position.offset high (callNode head args).positions := by
  unfold callNode
  split
  · exact (Between.singleton (Nat.le_refl _) (Nat.le_refl _)).append hargs (Nat.le_refl _) hlt hle
  · exact .singleton (Nat.le_refl _) (Nat.le_of_lt (Nat.lt_of_lt_of_le hlt hle))

/-- **The nodes that are read stand in strict order**, where the tokens do: between
the place where reading begins and the place where it goes on. -/
theorem between (b : Bounds) :
    (∀ depth head s, InOrder b.stop (head :: s.rest) →
      Between head.position.offset (cursor b.stop (call b depth head s).2.rest)
        (call b depth head s).1.positions) ∧
    (∀ depth s, InOrder b.stop s.rest →
      Between (cursor b.stop s.rest) (cursor b.stop (argument b depth s).2.rest)
        (argument b depth s).1.positions) ∧
    ∀ depth s, InOrder b.stop s.rest →
      Between (cursor b.stop s.rest) (cursor b.stop (arguments b depth [] s).2.rest)
        (Node.positionsAmong (arguments b depth [] s).1) := by
  apply induction (b := b)
    (C := fun _ head s r => InOrder b.stop (head :: s.rest) →
      Between head.position.offset (cursor b.stop r.2.rest) r.1.positions)
    (A := fun _ s r => InOrder b.stop s.rest →
      Between (cursor b.stop s.rest) (cursor b.stop r.2.rest) r.1.positions)
    (L := fun _ s r => InOrder b.stop s.rest →
      Between (cursor b.stop s.rest) (cursor b.stop r.2.rest) (Node.positionsAmong r.1))
  case headless =>
    intro depth head s _ horder
    rw [State.unexpected_rest, State.announce_rest]
    exact .singleton (Nat.le_refl _) (Nat.le_of_lt horder.1)
  case skipped =>
    intro depth head s _ _ horder
    exact .singleton (Nat.le_refl _)
      (Nat.le_of_lt (horder.cursor_lt (skipBalanced_suffix 0 s.rest)))
  case empty =>
    intro depth head s _ _ _ horder
    have hlt := horder.cursor_lt ((List.tail_suffix _).trans (List.tail_suffix s.rest))
    exact between_callNode hlt (.nil _ _) (Nat.le_refl _)
  case applied =>
    intro depth head s _ _ _ ih horder
    have hlt := horder.cursor_lt (List.tail_suffix s.rest)
    have htail := (horder.2.suffix (List.tail_suffix s.rest)).1
    have hsuffix := arguments_suffix b depth { s.announce head with rest := s.rest.tail }
    exact between_callNode hlt (ih htail) (htail.suffix hsuffix).2
  case ended =>
    intro depth s hs _
    rw [State.unexpected_rest, hs]
    exact .singleton (Nat.le_refl _) (Nat.le_refl _)
  case nested =>
    intro depth s t ts hs _ ih horder
    rw [hs] at horder ⊢
    exact ih horder
  case word =>
    intro depth s t ts hs _ _ horder
    rw [hs] at horder ⊢
    rw [positions_wordNode]
    exact .singleton (Nat.le_refl _) (Nat.le_of_lt horder.1)
  case missing =>
    intro depth s t ts hs _ _
    rw [State.report_rest, hs]
    exact .singleton (Nat.le_refl _) (Nat.le_refl _)
  case group =>
    intro depth s t ts hs _ horder
    have hle := (horder.suffix (synchronize_suffix 0 s.rest)).2
    rw [hs] at hle ⊢
    exact .singleton (Nat.le_refl _) hle
  case last =>
    intro depth s ih _ horder
    have hrest := (horder.suffix (argument_suffix b depth s)).1
    have hle := (hrest.suffix (separator_suffix b (argument b depth s).2)).2
    rw [Node.positionsAmong, Node.positionsAmong, List.append_nil]
    exact (ih horder).mono hle
  case more =>
    intro depth s ih hmore ihrest horder
    obtain ⟨hrest, hle⟩ := horder.suffix (argument_suffix b depth s)
    have hbehind := (hrest.suffix (separator_suffix b (argument b depth s).2)).1
    have hlast := (hbehind.suffix (arguments_suffix b depth _)).2
    rw [Node.positionsAmong]
    exact (ih horder).append (ihrest hbehind) hle (separator_cursor_lt hrest hmore) hlast

/-! ## 4. Mistakes in the form -/

/-- Whether the errors so far come in order, and none of them stands behind an
offset. They are kept latest first. -/
structure State.UpTo (s : State) (offset : Nat) : Prop where
  ordered : s.errors.Pairwise fun e e' => e'.position.offset ≤ e.position.offset
  bounded : ∀ e ∈ s.errors, e.position.offset ≤ offset

namespace State

theorem UpTo.mono {s : State} {offset next : Nat} (h : s.UpTo offset) (hle : offset ≤ next) :
    s.UpTo next := ⟨h.ordered, fun e he => Nat.le_trans (h.bounded e he) hle⟩

/-- Moving on in the tokens changes nothing that has been reported. -/
theorem UpTo.withRest {s : State} {offset : Nat} (h : s.UpTo offset) (ts : List Token) :
    UpTo { s with rest := ts } offset := ⟨h.ordered, h.bounded⟩

theorem UpTo.report {s : State} {e : SyntaxError} (h : s.UpTo e.position.offset) :
    (s.report e).UpTo e.position.offset :=
  ⟨List.pairwise_cons.mpr ⟨h.bounded, h.ordered⟩,
    List.forall_mem_cons.mpr ⟨Nat.le_refl _, h.bounded⟩⟩

theorem UpTo.unexpected {s : State} {b : Bounds} (h : s.UpTo (cursor b.stop s.rest))
    (x : Expected) : (s.unexpected b x).UpTo (cursor b.stop s.rest) := by
  obtain ⟨rest, errors, cut⟩ := s
  cases rest <;> exact h.report

theorem UpTo.announce {s : State} {head : Token} (h : s.UpTo head.position.offset) :
    (s.announce head).UpTo head.position.offset := by
  unfold State.announce
  split
  · exact h.report
  · exact h

theorem UpTo.reportDepth {s : State} {p : Position} (h : s.UpTo p.offset) (b : Bounds) :
    (s.reportDepth b p).UpTo p.offset := by
  unfold State.reportDepth
  split
  · exact h
  · exact ⟨h.report.ordered, h.report.bounded⟩

theorem UpTo.expectSeparator {s : State} {b : Bounds} (h : s.UpTo (cursor b.stop s.rest)) :
    (s.expectSeparator b).UpTo (cursor b.stop s.rest) := by
  unfold State.expectSeparator
  split
  · split
    · exact h
    · exact h.unexpected _
  · exact h

theorem UpTo.expectEnd {s : State} {stop : Position} (h : s.UpTo (cursor stop s.rest)) :
    s.expectEnd.UpTo (cursor stop s.rest) := by
  obtain ⟨rest, errors, cut⟩ := s
  cases rest with
  | nil => exact h
  | cons t ts => exact h.report

end State

theorem upTo_separator {b : Bounds} {s : State} (horder : InOrder b.stop s.rest)
    (h : s.UpTo (cursor b.stop s.rest)) :
    (separator b s).2.UpTo (cursor b.stop (separator b s).2.rest) := by
  have hle := (horder.suffix (separator_suffix b s)).2
  cases hsync : synchronize 0 s.rest with
  | nil =>
    rw [separator_of_synchronize_nil hsync, State.unexpected_rest] at hle
    rw [separator_of_synchronize_nil hsync, State.unexpected_rest]
    exact State.UpTo.unexpected ((h.expectSeparator.withRest []).mono hle) _
  | cons t ts =>
    rw [separator_of_synchronize_cons hsync] at hle ⊢
    exact (h.expectSeparator.withRest ts).mono hle

/-- **Mistakes in the form are found in order**, where the tokens are in order: what
has been reported when a step begins stands no further than reading does, and so it
is when the step ends. -/
theorem upTo (b : Bounds) :
    (∀ depth head s, InOrder b.stop (head :: s.rest) → s.UpTo head.position.offset →
      (call b depth head s).2.UpTo (cursor b.stop (call b depth head s).2.rest)) ∧
    (∀ depth s, InOrder b.stop s.rest → s.UpTo (cursor b.stop s.rest) →
      (argument b depth s).2.UpTo (cursor b.stop (argument b depth s).2.rest)) ∧
    ∀ depth s, InOrder b.stop s.rest → s.UpTo (cursor b.stop s.rest) →
      (arguments b depth [] s).2.UpTo (cursor b.stop (arguments b depth [] s).2.rest) := by
  apply induction (b := b)
    (C := fun _ head s r => InOrder b.stop (head :: s.rest) → s.UpTo head.position.offset →
      r.2.UpTo (cursor b.stop r.2.rest))
    (A := fun _ s r => InOrder b.stop s.rest → s.UpTo (cursor b.stop s.rest) →
      r.2.UpTo (cursor b.stop r.2.rest))
    (L := fun _ s r => InOrder b.stop s.rest → s.UpTo (cursor b.stop s.rest) →
      r.2.UpTo (cursor b.stop r.2.rest))
  case headless =>
    intro depth head s _ horder h
    have hahead : (s.announce head).UpTo (cursor b.stop (s.announce head).rest) := by
      rw [State.announce_rest]
      exact h.announce.mono (Nat.le_of_lt horder.1)
    rw [State.unexpected_rest]
    exact hahead.unexpected _
  case skipped =>
    intro depth head s _ _ horder h
    exact ((h.announce.reportDepth b).withRest _).mono
      (Nat.le_of_lt (horder.cursor_lt (skipBalanced_suffix 0 s.rest)))
  case empty =>
    intro depth head s _ _ _ horder h
    exact (h.announce.withRest _).mono (Nat.le_of_lt
      (horder.cursor_lt ((List.tail_suffix _).trans (List.tail_suffix s.rest))))
  case applied =>
    intro depth head s _ _ _ ih horder h
    exact ih (horder.2.suffix (List.tail_suffix s.rest)).1
      ((h.announce.withRest _).mono (Nat.le_of_lt (horder.cursor_lt (List.tail_suffix s.rest))))
  case ended =>
    intro depth s _ _ h
    rw [State.unexpected_rest]
    exact h.unexpected _
  case nested =>
    intro depth s t ts hs _ ih horder h
    rw [hs] at horder h
    exact ih horder (h.withRest ts)
  case word =>
    intro depth s t ts hs _ _ horder h
    rw [hs] at horder h
    exact (h.withRest ts).mono (Nat.le_of_lt horder.1)
  case missing =>
    intro depth s t ts hs _ _ h
    rw [State.report_rest]
    rw [hs] at h ⊢
    exact State.UpTo.report (e := .missingArgument t.position) h
  case group =>
    intro depth s t ts _ _ horder h
    exact ((h.unexpected _).withRest _).mono (horder.suffix (synchronize_suffix 0 s.rest)).2
  case last =>
    intro depth s ih _ horder h
    exact upTo_separator (horder.suffix (argument_suffix b depth s)).1 (ih horder h)
  case more =>
    intro depth s ih _ ihrest horder h
    have hrest := (horder.suffix (argument_suffix b depth s)).1
    exact ihrest (hrest.suffix (separator_suffix b _)).1 (upTo_separator hrest (ih horder h))

/-- What is read of tokens in order: a tree whose nodes are in strict order, and
mistakes in order. -/
theorem query_ordered {b : Bounds} {tokens : List Token} (horder : InOrder b.stop tokens) :
    (query b tokens).errors.Pairwise (fun e e' => e.position.offset ≤ e'.position.offset) ∧
      ∀ n ∈ (query b tokens).ast, n.positions.Pairwise fun p q => p.offset < q.offset := by
  cases tokens with
  | nil => exact ⟨List.pairwise_singleton _ _, by rintro n ⟨⟩⟩
  | cons t ts =>
    cases hbegins : beginsCall t ts with
    | false =>
      rw [query_of_not_beginsCall hbegins]
      exact ⟨List.pairwise_singleton _ _, by rintro n ⟨⟩⟩
    | true =>
      have hstart : State.UpTo ⟨ts, [], false⟩ t.position.offset :=
        ⟨List.Pairwise.nil, List.forall_mem_nil _⟩
      have herrors := (upTo b).1 0 t ⟨ts, [], false⟩ horder hstart
      rw [query_of_beginsCall hbegins]
      refine ⟨List.pairwise_reverse.mpr herrors.expectEnd.ordered, ?_⟩
      intro n hn
      dsimp only at hn
      split at hn
      · cases hn
      · cases hn
        exact ((between b).1 0 t ⟨ts, [], false⟩ horder).ordered

end Parse

/-! ## 5. Mistakes in the meaning -/

namespace Binding

theorem sublist_arityErrors (op : Operator) (found : Nat) (p : Position) :
    ((arityErrors op found p).map BindError.position).Sublist [p] := by
  unfold arityErrors
  split <;> simp [BindError.position]

theorem sublist_operand (name : String) (field : Field) (op : CompareOp) (n : Node) :
    ((operand name field op n).errors.map BindError.position).Sublist n.positions := by
  cases n with
  | literal literal p =>
    cases hcoerce : field.coerce op literal with
    | ok v => simp [operand, hcoerce]
    | error expected =>
      rw [operand, hcoerce]
      exact List.Sublist.refl _
  | call op' args p => exact (Node.call op' args p).position_sublist_positions
  | field name' p => exact List.Sublist.refl _
  | invalid p => exact List.nil_sublist _

/-- What is reported of some nodes one by one is reported in their order. -/
theorem sublist_flatMap {errors : Node → List BindError} {ns : List Node}
    (h : ∀ n ∈ ns, ((errors n).map BindError.position).Sublist n.positions) :
    ((ns.flatMap errors).map BindError.position).Sublist (Node.positionsAmong ns) := by
  induction ns with
  | nil => exact List.Sublist.refl _
  | cons n ns ih =>
    rw [List.flatMap_cons, List.map_append, Node.positionsAmong]
    exact (h n List.mem_cons_self).append (ih fun m hm => h m (List.mem_cons_of_mem n hm))

theorem sublist_comparison (schema : Schema) (op : CompareOp) (args : List Node) (p : Position) :
    ((comparison schema op args p).errors.map BindError.position).Sublist
      (p :: Node.positionsAmong args) := by
  have harity : ∀ found, ((arityErrors (.compare op) found p).map BindError.position).Sublist
      (p :: Node.positionsAmong args) := fun found =>
    (sublist_arityErrors _ found p).trans (List.cons_sublist_cons.mpr (List.nil_sublist _))
  unfold comparison
  split
  · exact harity 0
  · next name fieldPosition rest =>
    split
    · exact (List.cons_sublist_cons.mpr (List.nil_sublist _)).cons p
    · next field hget =>
      split
      · have hoperands := sublist_flatMap fun n (_ : n ∈ rest) => sublist_operand name field op n
        rw [← List.flatMap_map] at hoperands
        exact (hoperands.cons fieldPosition).cons p
      · next herrors => exact harity (rest.length + 1)
  · exact List.nil_sublist _
  · next n rest _ _ =>
    exact (n.position_sublist_positions.trans (List.sublist_append_left _ _)).cons p

/-- **Binding reports at nodes only, at each of them at most once, and in the order
of the tree.** -/
theorem node_sublist (schema : Schema) (n : Node) :
    ((node schema n).errors.map BindError.position).Sublist n.positions := by
  induction n using Node.induction with
  | call op args p ih =>
    cases op with
    | combine op =>
      rw [errors_combine, List.map_append, Node.positions]
      exact (sublist_arityErrors _ _ p).append (sublist_flatMap ih)
    | compare op => exact sublist_comparison schema op args p
  | field name p => exact List.Sublist.refl _
  | literal value p => exact List.Sublist.refl _
  | invalid p => exact List.nil_sublist _

end Binding

/-- Of a tree whose nodes are in strict order the mistakes are in strict order. -/
theorem Schema.bind_ordered {n : Node}
    (h : n.positions.Pairwise fun p q => p.offset < q.offset) (schema : Schema) :
    (schema.bind n).errors.Pairwise fun e e' => e.position.offset < e'.position.offset := by
  have hpositions : ((schema.bind n).errors.map BindError.position).Pairwise
      fun p q => p.offset < q.offset := h.sublist (Binding.node_sublist schema n)
  rwa [List.pairwise_map] at hpositions

/-! ## 6. Lexical errors -/

/-- Whether an error is the report of a wrong escape. -/
def LexError.isInvalidEscape : LexError → Bool
  | invalidEscape _ _ => true
  | _ => false

/-- Whether one lexical error may be reported before another: nothing is reported
behind a literal that is never closed; and the one stands before the other in the
text, or it is a wrong escape behind the opening quote of such a literal. -/
structure LexError.Precedes (e e' : LexError) : Prop where
  closed : e.isUnterminatedString = false
  ordered : e.position.offset < e'.position.offset ∨
    (e.isInvalidEscape = true ∧ e'.isUnterminatedString = true ∧
      e'.position.offset < e.position.offset)

theorem Position.offset_lt_advance (p : Position) (c : Char) : p.offset < (p.advance c).offset := by
  rw [offset_advance]
  exact Nat.lt_add_of_pos_right c.utf8Size_pos

theorem Position.offset_le_after (p : Position) (cs : List Char) :
    p.offset ≤ (p.after cs).offset := by
  rw [offset_after]
  exact Nat.le_add_right _ _

theorem Position.offset_lt_after (p : Position) {cs : List Char} (h : cs ≠ []) :
    p.offset < (p.after cs).offset := by
  obtain ⟨c, cs, rfl⟩ := List.exists_cons_of_ne_nil h
  exact Nat.lt_of_lt_of_le (p.offset_lt_advance c) (offset_le_after _ cs)

namespace Quoted

theorem offset_le_of_mem_badEscapes {origin : Position} {ps : List Piece} {y : Char × Position}
    (h : y ∈ badEscapes origin ps) : origin.offset ≤ y.2.offset := by
  obtain ⟨qs, rs, _, hy⟩ := mem_badEscapes h
  rw [hy]
  exact Position.offset_le_after _ _

theorem pairwise_badEscapes (origin : Position) (ps : List Piece) :
    (badEscapes origin ps).Pairwise fun x y => x.2.offset < y.2.offset := by
  induction ps generalizing origin with
  | nil => exact List.Pairwise.nil
  | cons x ps ih =>
    rw [badEscapes_cons]
    cases hx : x.badEscape? with
    | none => exact ih _
    | some c =>
      have hsource : x.source ≠ [] := by
        rw [eq_escaped_of_badEscape hx]
        exact List.cons_ne_nil _ _
      refine List.pairwise_cons.mpr ⟨?_, ih _⟩
      intro y hy
      exact Nat.lt_of_lt_of_le (origin.offset_lt_after hsource) (offset_le_of_mem_badEscapes hy)

/-- A wrong escape stands behind the opening quote, and before the end of any text
that the literal begins. -/
theorem offset_of_mem_badEscapes {p : Position} {q : Char} {ps : List Piece} {y : Char × Position}
    (h : y ∈ badEscapes (p.advance q) ps) (left : List Char) :
    p.offset < y.2.offset ∧ y.2.offset < (p.after (q :: source ps ++ left)).offset := by
  refine ⟨Nat.lt_of_lt_of_le (p.offset_lt_advance q) (offset_le_of_mem_badEscapes h), ?_⟩
  obtain ⟨inside, tail, hsplit, hposition, hshows⟩ := mem_badEscapes_source h left
  have htail : tail ≠ [] := by
    rintro rfl
    cases List.prefix_nil.mp hshows
  have hy : y.2 = p.after inside := hposition
  rw [hsplit, Position.after_append, hy]
  exact Position.offset_lt_after _ htail

theorem precedes_badEscapes (origin : Position) (ps : List Piece) :
    ((badEscapes origin ps).map fun y => LexError.invalidEscape y.1 y.2).Pairwise
      LexError.Precedes := by
  refine List.pairwise_map.mpr ((pairwise_badEscapes origin ps).imp ?_)
  exact fun hlt => ⟨rfl, .inl hlt⟩

end Quoted

/-- Whether the errors of a run at a position come in order, and each of them stands
inside the run. -/
structure Run.Reports (p : Position) (r : Run) : Prop where
  ordered : r.errors.Pairwise LexError.Precedes
  inside : ∀ e ∈ r.errors,
    p.offset ≤ e.position.offset ∧ e.position.offset < (p.after r.source).offset

theorem Run.reports_of_errors_eq_nil {p : Position} {r : Run} (h : r.errors = []) :
    r.Reports p := by
  refine ⟨?_, ?_⟩ <;> rw [h]
  · exact List.Pairwise.nil
  · exact List.forall_mem_nil _

/-- A run that reports one error, at its own start. -/
theorem Run.reports_of_error {p : Position} {r : Run} {e : LexError} (herrors : r.errors = [e])
    (hposition : e.position = p) (hsource : r.source ≠ []) : r.Reports p := by
  refine ⟨?_, ?_⟩ <;> rw [herrors]
  · exact List.pairwise_singleton _ e
  · intro e' he'
    rw [List.mem_singleton.mp he', hposition]
    exact ⟨Nat.le_refl _, p.offset_lt_after hsource⟩

theorem readRun_source_ne_nil (p : Position) (c : Char) (cs : List Char) :
    (readRun p c cs).1.source ≠ [] := by
  intro h
  have hsource := readRun_source p c cs
  have hlength := readRun_length p c cs
  rw [h, List.nil_append] at hsource
  rw [hsource] at hlength
  exact Nat.lt_irrefl _ hlength

theorem readString_reports (p : Position) (q : Char) (cs : List Char) :
    (readString p q cs).1.Reports p := by
  unfold readString
  split
  · next ps rest _ =>
    refine ⟨Quoted.precedes_badEscapes _ ps, List.forall_mem_map.mpr ?_⟩
    intro y hy
    obtain ⟨hlow, hhigh⟩ := Quoted.offset_of_mem_badEscapes hy [q]
    rw [Run.source, String.toList_ofList]
    exact ⟨Nat.le_of_lt hlow, hhigh⟩
  · next ps left hscan =>
    refine ⟨List.pairwise_append.mpr
      ⟨Quoted.precedes_badEscapes _ ps, List.pairwise_singleton _ _, ?_⟩, ?_⟩
    · refine List.forall_mem_map.mpr fun y hy e he => ?_
      rw [List.mem_singleton.mp he]
      exact ⟨rfl, .inr ⟨rfl, rfl, (Quoted.offset_of_mem_badEscapes hy []).1⟩⟩
    · refine List.forall_mem_append.mpr ⟨List.forall_mem_map.mpr ?_, ?_⟩
      · intro y hy
        obtain ⟨hlow, hhigh⟩ := Quoted.offset_of_mem_badEscapes hy left
        exact ⟨Nat.le_of_lt hlow, hhigh⟩
      · intro e he
        rw [List.mem_singleton.mp he]
        exact ⟨Nat.le_refl _, p.offset_lt_after (List.cons_ne_nil _ _)⟩

/-- What is wrong with a run is reported in order, at places inside the run. -/
theorem readRun_reports (p : Position) (c : Char) (cs : List Char) :
    (readRun p c cs).1.Reports p := by
  have hsource := readRun_source_ne_nil p c cs
  revert hsource
  apply readRun_cases (P := fun r => r.1.source ≠ [] → r.1.Reports p) p c cs
  case blank => exact fun _ _ => Run.reports_of_errors_eq_nil rfl
  case mark => exact fun _ _ _ => Run.reports_of_errors_eq_nil rfl
  case quoted => exact fun _ _ => readString_reports p c cs
  case numeral =>
    intro n rest _ _ hsource
    unfold numeralRun at hsource ⊢
    split at hsource
    · exact Run.reports_of_errors_eq_nil rfl
    · exact Run.reports_of_error rfl rfl hsource
  case word => exact fun _ _ => Run.reports_of_errors_eq_nil rfl
  case illegal => exact fun _ _ _ hsource => Run.reports_of_error rfl rfl hsource

/-- A literal that is never closed takes the rest of the text. -/
theorem readRun_of_unterminated {p : Position} {c : Char} {cs : List Char} {e : LexError}
    (he : e ∈ (readRun p c cs).1.errors) (h : e.isUnterminatedString = true) :
    (readRun p c cs).2 = [] := by
  revert he
  apply readRun_cases (P := fun r => e ∈ r.1.errors → r.2 = []) p c cs
  case blank => exact fun _ he => absurd he List.not_mem_nil
  case mark => exact fun _ _ he => absurd he List.not_mem_nil
  case quoted =>
    intro _ he
    unfold readString at he ⊢
    split
    · next heq =>
      rw [heq] at he
      obtain ⟨y, _, rfl⟩ := List.mem_map.mp he
      cases h
    · rfl
  case numeral =>
    intro n rest _ _ he
    unfold numeralRun at he
    split at he
    · exact absurd he List.not_mem_nil
    · rw [List.mem_singleton.mp he] at h
      cases h
  case word => exact fun _ he => absurd he List.not_mem_nil
  case illegal =>
    intro _ _ _ he
    rw [List.mem_singleton.mp he] at h
    cases h

/-- Lexical errors come in order, with the one exception. -/
theorem errors_ordered (p : Position) (text : List Char) :
    ((runsFrom [] p text).flatMap Run.errors).Pairwise LexError.Precedes ∧
      ∀ e ∈ (runsFrom [] p text).flatMap Run.errors, p.offset ≤ e.position.offset := by
  induction p, text using runs_induction with
  | nil p =>
    rw [runsFrom_nil]
    exact ⟨List.Pairwise.nil, List.forall_mem_nil _⟩
  | run p c cs ih =>
    obtain ⟨hordered, hbehind⟩ := ih
    have hrun := readRun_reports p c cs
    have hend := p.offset_lt_after (readRun_source_ne_nil p c cs)
    rw [runsFrom_cons, List.flatMap_cons]
    refine ⟨List.pairwise_append.mpr ⟨hrun.ordered, hordered, ?_⟩,
      List.forall_mem_append.mpr ⟨fun e he => (hrun.inside e he).1, ?_⟩⟩
    · intro e he e' he'
      refine ⟨?_, .inl (Nat.lt_of_lt_of_le (hrun.inside e he).2 (hbehind e' he'))⟩
      -- were the literal not closed, there would be no run behind it
      rw [← Bool.not_eq_true]
      intro hopen
      rw [readRun_of_unterminated he hopen, runsFrom_nil] at he'
      exact absurd he' List.not_mem_nil
    · exact fun e he => Nat.le_trans (Nat.le_of_lt hend) (hbehind e he)

/-! ## 7. Whole queries -/

open Parse in
/-- The tokens of a text stand in order. -/
theorem tokens_inOrder (p : Position) (text : List Char) :
    InOrder (p.after text) ((runsFrom [] p text).filterMap Run.token?) ∧
      p.offset ≤ cursor (p.after text) ((runsFrom [] p text).filterMap Run.token?) := by
  induction p, text using runs_induction with
  | nil p =>
    rw [runsFrom_nil]
    exact ⟨trivial, Nat.le_refl _⟩
  | run p c cs ih =>
    have hend := p.offset_lt_after (readRun_source_ne_nil p c cs)
    rw [← Position.after_append, readRun_source] at ih
    obtain ⟨horder, hle⟩ := ih
    rw [runsFrom_cons, List.filterMap_cons]
    cases htoken : (readRun p c cs).1.token? with
    | none => exact ⟨horder, Nat.le_trans (Nat.le_of_lt hend) hle⟩
    | some t =>
      have ht : t.position = p := (readRun_standsAt p c cs).token t htoken
      refine ⟨⟨?_, horder⟩, ?_⟩
      · rw [ht]
        exact Nat.lt_of_lt_of_le hend hle
      · exact Nat.le_of_eq (by rw [cursor, ht])

/-- The tree that is read of a text and the mistakes in its form are in order. -/
theorem Syntactic.ordered_of_within {limits : Limits} {text : String}
    (hlength : text.utf8ByteSize ≤ limits.maxInputLength) :
    (Syntactic.ofText limits text).syntaxErrors.Pairwise
      (fun e e' => e.position.offset ≤ e'.position.offset) ∧
    ∀ n ∈ (Syntactic.ofText limits text).ast,
      n.positions.Pairwise fun p q => p.offset < q.offset := by
  have horder := (tokens_inOrder .start text.toList).1
  rw [Syntactic.ofText_of_within hlength]
  exact Parse.query_ordered
    (b := ⟨min limits.maxDepth depthCeiling, (Lexed.ofText text).stop⟩) horder

theorem Node.preorder_ordered {n : Node}
    (h : n.positions.Pairwise fun p q => p.offset < q.offset) :
    n.preorder.Pairwise fun x y => x.2.position.offset < y.2.position.offset := by
  rwa [← n.preorder_positions, List.pairwise_map] at h

/-- **Diagnostics come in the order of the text.** Whatever the schema, the limits and
the text are:

* of two lexical errors the first stands before the second, unless the second is
  the report of a literal that is never closed, and the first that of a wrong
  escape behind its opening quote; nothing follows such a report;
* no mistake in the form stands before one that is reported before it;
* the nodes of the tree stand in strict order, each before its arguments;
* and so do the mistakes in the meaning, so that no node is blamed twice. -/
theorem Outcome.ofText_ordered (schema : Schema) (limits : Limits) (text : String) :
    (Outcome.ofText schema limits text).lexErrors.Pairwise LexError.Precedes ∧
    (Outcome.ofText schema limits text).syntaxErrors.Pairwise
      (fun e e' => e.position.offset ≤ e'.position.offset) ∧
    ((Syntactic.ofText limits text).ast.toList.flatMap Node.preorder).Pairwise
      (fun x y => x.2.position.offset < y.2.position.offset) ∧
    (Outcome.ofText schema limits text).bindErrors.Pairwise
      (fun e e' => e.position.offset < e'.position.offset) := by
  by_cases hlength : text.utf8ByteSize ≤ limits.maxInputLength
  · obtain ⟨hform, hnodes⟩ := Syntactic.ordered_of_within hlength
    have hlex : (Outcome.ofText schema limits text).lexErrors.Pairwise LexError.Precedes := by
      rw [Outcome.ofText, Outcome.ofSyntactic, Syntactic.ofText_of_within hlength]
      exact (errors_ordered .start text.toList).1
    refine ⟨hlex, hform, ?_⟩
    cases hast : (Syntactic.ofText limits text).ast with
    | none =>
      rw [Outcome.ofText, Outcome.ofSyntactic, hast]
      exact ⟨List.Pairwise.nil, List.Pairwise.nil⟩
    | some n =>
      have hn := hnodes n hast
      rw [(Outcome.ofText_of_ast hast).1, Option.toList_some, List.flatMap_singleton]
      exact ⟨n.preorder_ordered hn, Schema.bind_ordered hn schema⟩
  · rw [Outcome.ofText, Syntactic.ofText_of_too_long (Nat.not_le.mp hlength)]
    exact ⟨List.pairwise_singleton _ _, List.Pairwise.nil, List.Pairwise.nil, List.Pairwise.nil⟩

/-- A wrong escape in a literal that is never closed is reported before the literal. -/
example : (Lexed.ofText "'\\q").errors =
    [.invalidEscape 'q' ⟨1, 1, 2⟩, .unterminatedString ⟨0, 1, 1⟩] := by decide +kernel

end FilterQuery
