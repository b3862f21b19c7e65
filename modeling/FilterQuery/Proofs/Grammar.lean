/-
FilterQuery.Proofs.Grammar — the grammar of queries, apart from any reader.

    expression := (OPERATOR | IDENTIFIER) '(' (argument (',' argument)*)? ')'
    argument   := expression | IDENTIFIER | NUMBER | STRING | BOOLEAN | NULL

The three relations `Expression`, `Arguments` and `Argument` say which
sequences of tokens the grammar derives, and with which tree. They know
nothing of how a query is read: no state, no errors, no limit, and no
choice of what to do with a token that does not fit.

A tree (`Phrase`) keeps the token of every call head and of every
argument that is a single token; parentheses and commas leave no trace in
it. Three things are read off a tree: how deep its calls are nested, the
node it stands for, and the heads in it that name no operator, in the
order of the text.

## Why the tree is not a node

A call whose head is a plain identifier is a sentence of the grammar, but
its node is `invalid`: the node forgets the arguments, and with them the
unknown heads inside. The tree keeps them.
-/
import FilterQuery.Node.Parse
import FilterQuery.Proofs.Shape

namespace FilterQuery

/-- Whether an error is the report of a call head that names no operator. -/
def SyntaxError.isUnknownOperator : SyntaxError → Bool
  | unknownOperator _ _ => true
  | _ => false

namespace Grammar

/-! ## 1. Trees -/

/-- A tree of the grammar: a call, or an argument that is a single token. -/
inductive Phrase where
  | call (head : Token) (args : List Phrase)
  | word (t : Token)
deriving Repr

namespace Phrase

/-- To prove something of every tree, prove it of a call whose arguments have
it, and of single tokens. -/
@[elab_as_elim]
theorem induction {P : Phrase → Prop}
    (call : ∀ head args, (∀ a ∈ args, P a) → P (.call head args))
    (word : ∀ t, P (.word t)) : ∀ e : Phrase, P e
  | .call head args => call head args fun a _ => induction call word a
  | .word t => word t

mutual

/-- How many calls are nested in each other; a single token has none. -/
def nesting : Phrase → Nat
  | call _ args => nestingAmong args + 1
  | word _ => 0

/-- The greatest nesting of some trees. -/
def nestingAmong : List Phrase → Nat
  | [] => 0
  | e :: es => max e.nesting (nestingAmong es)

end

/-- The node of an argument that is a single token. -/
def wordNode (t : Token) : Node :=
  match t.kind with
  | .identifier name => .field name t.position
  | .number n => .literal (.number n) t.position
  | .string s => .literal (.string s) t.position
  | .boolean b => .literal (.boolean b) t.position
  | .null => .literal .null t.position
  | _ => .invalid t.position

/-- The node of a call with the given argument nodes. Only an operator has
one. -/
def headNode (head : Token) (args : List Node) : Node :=
  match head.kind with
  | .operator op => .call op args head.position
  | _ => .invalid head.position

mutual

/-- The node of a tree: every call whose head is no operator is `invalid`. -/
def node : Phrase → Node
  | call head args => headNode head (nodes args)
  | word t => wordNode t

/-- The nodes of some trees. -/
def nodes : List Phrase → List Node
  | [] => []
  | e :: es => e.node :: nodes es

end

/-- The error for a call head that names no operator. -/
def headErrors (head : Token) : List SyntaxError :=
  match head.kind with
  | .identifier name => [.unknownOperator name head.position]
  | _ => []

mutual

/-- The errors for all call heads in a tree that name no operator, in the
order of the text. -/
def unknownHeads : Phrase → List SyntaxError
  | call head args => headErrors head ++ unknownAmong args
  | word _ => []

/-- The same for trees that stand side by side. -/
def unknownAmong : List Phrase → List SyntaxError
  | [] => []
  | e :: es => e.unknownHeads ++ unknownAmong es

end

end Phrase

/-! ## 2. Derivations -/

/-- Whether a token may be the head of a call. -/
def isHead (t : Token) : Bool :=
  match t.kind with
  | .operator _ | .identifier _ => true
  | _ => false

/-- Whether a token may be an argument by itself. -/
def isWord (t : Token) : Bool :=
  match t.kind with
  | .identifier _ | .number _ | .string _ | .boolean _ | .null => true
  | _ => false

mutual

/-- `expression := (OPERATOR | IDENTIFIER) '(' (argument (',' argument)*)? ')'` -/
inductive Expression : List Token → Phrase → Prop
  | empty {head opening closing : Token} (isHead : isHead head = true)
      (opens : opening.kind = .openParen) (closes : closing.kind = .closeParen) :
      Expression [head, opening, closing] (.call head [])
  | applied {head opening closing : Token} {ts : List Token} {args : List Phrase}
      (isHead : isHead head = true) (opens : opening.kind = .openParen)
      (arguments : Arguments ts args) (closes : closing.kind = .closeParen) :
      Expression (head :: opening :: (ts ++ [closing])) (.call head args)

/-- `argument (',' argument)*` -/
inductive Arguments : List Token → List Phrase → Prop
  | last {ts : List Token} {a : Phrase} (argument : Argument ts a) : Arguments ts [a]
  | more {ts us : List Token} {comma : Token} {a : Phrase} {as : List Phrase}
      (argument : Argument ts a) (separates : comma.kind = .comma)
      (arguments : Arguments us as) : Arguments (ts ++ comma :: us) (a :: as)

/-- `argument := expression | IDENTIFIER | NUMBER | STRING | BOOLEAN | NULL` -/
inductive Argument : List Token → Phrase → Prop
  | expression {ts : List Token} {e : Phrase} (expression : Expression ts e) : Argument ts e
  | word {t : Token} (isWord : isWord t = true) : Argument [t] (.word t)

end

/-- A call of two words, as every comparison with one value is. -/
theorem Expression.comparison {head opening field comma value closing : Token}
    (hhead : isHead head = true) (hopens : opening.kind = .openParen)
    (hfield : isWord field = true) (hcomma : comma.kind = .comma)
    (hvalue : isWord value = true) (hcloses : closing.kind = .closeParen) :
    Expression [head, opening, field, comma, value, closing]
      (.call head [.word field, .word value]) :=
  have hargs : Arguments [field, comma, value] [.word field, .word value] :=
    @Arguments.more [field] [value] _ _ _ (.word hfield) hcomma (.last (.word hvalue))
  @Expression.applied _ opening closing _ _ hhead hopens hargs hcloses

/-! ## 3. What a tree is made of -/

namespace Phrase

theorem nestingAmong_le_iff {es : List Phrase} {k : Nat} :
    nestingAmong es ≤ k ↔ ∀ e ∈ es, e.nesting ≤ k := by
  induction es with
  | nil => simp [nestingAmong]
  | cons e es ih => rw [nestingAmong, Nat.max_le, ih, List.forall_mem_cons]

theorem nodes_eq_map (es : List Phrase) : nodes es = es.map node := by
  induction es with
  | nil => rfl
  | cons e es ih => rw [nodes, ih, List.map_cons]

theorem mem_nodes {es : List Phrase} {n : Node} : n ∈ nodes es ↔ ∃ e ∈ es, e.node = n := by
  rw [nodes_eq_map, List.mem_map]

theorem mem_unknownAmong {es : List Phrase} {x : SyntaxError} :
    x ∈ unknownAmong es ↔ ∃ e ∈ es, x ∈ e.unknownHeads := by
  induction es with
  | nil => simp [unknownAmong]
  | cons e es ih =>
    rw [unknownAmong, List.mem_append, ih]
    simp

theorem unknownAmong_eq_nil_iff {es : List Phrase} :
    unknownAmong es = [] ↔ ∀ e ∈ es, e.unknownHeads = [] := by
  induction es with
  | nil => simp [unknownAmong]
  | cons e es ih => rw [unknownAmong, List.append_eq_nil_iff, ih, List.forall_mem_cons]

theorem isUnknownOperator_of_mem (e : Phrase) :
    ∀ x ∈ e.unknownHeads, x.isUnknownOperator = true := by
  induction e using induction with
  | call head args ih =>
    intro x hx
    rw [unknownHeads, List.mem_append, mem_unknownAmong] at hx
    rcases hx with hx | ⟨a, ha, hx⟩
    · unfold headErrors at hx
      split at hx
      · rw [List.mem_singleton.mp hx]
        rfl
      · exact absurd hx List.not_mem_nil
    · exact ih a ha x hx
  | word t =>
    intro x hx
    exact absurd hx List.not_mem_nil

/-- The calls of a node are nested no deeper than those of its tree. -/
theorem nesting_node_le (e : Phrase) : e.node.nesting ≤ e.nesting := by
  induction e using induction with
  | call head args ih =>
    rw [node, nesting]
    unfold headNode
    split
    · rw [Node.nesting, Nat.add_le_add_iff_right, Node.nestingAmong_le_iff]
      intro n hn
      obtain ⟨a, ha, rfl⟩ := mem_nodes.mp hn
      exact Nat.le_trans (ih a ha) (nestingAmong_le_iff.mp (Nat.le_refl _) a ha)
    · exact Nat.zero_le _
  | word t =>
    rw [node, nesting]
    unfold wordNode
    split <;> exact Nat.le_refl _

/-- Whether all heads and all single tokens of a tree have a property each. -/
inductive All (H W : Token → Prop) : Phrase → Prop
  | call {head : Token} {args : List Phrase} (ofHead : H head) (ofArgs : ∀ a ∈ args, a.All H W) :
      All H W (.call head args)
  | word {t : Token} (ofWord : W t) : All H W (.word t)

theorem All.mono {H W H' W' : Token → Prop} {e : Phrase} (h : e.All H W)
    (hhead : ∀ t, H t → H' t) (hword : ∀ t, W t → W' t) : e.All H' W' := by
  induction e using induction with
  | call head args ih =>
    cases h with
    | call ofHead ofArgs =>
      exact .call (hhead head ofHead) fun a ha => ih a ha (ofArgs a ha)
  | word t =>
    cases h with
    | word ofWord => exact .word (hword t ofWord)

/-- Whether the head of every call in a tree is an operator. -/
def OperatorHeaded (e : Phrase) : Prop :=
  e.All (fun head => ∃ op, head.kind = .operator op) fun _ => True

theorem OperatorHeaded.unknownHeads_eq_nil {e : Phrase} (h : e.OperatorHeaded) :
    e.unknownHeads = [] := by
  induction e using induction with
  | call head args ih =>
    cases h with
    | call hhead hargs =>
      obtain ⟨op, hop⟩ := hhead
      rw [unknownHeads, List.append_eq_nil_iff, unknownAmong_eq_nil_iff]
      exact ⟨by simp [headErrors, hop], fun a ha => ih a ha (hargs a ha)⟩
  | word t => rfl

end Phrase

mutual

/-- The heads and the single tokens of a sentence are among its tokens, and
each of them is what the grammar asks for. -/
theorem all_of_expression {P : Token → Prop} {ts : List Token} {e : Phrase} :
    Expression ts e → (∀ t ∈ ts, P t) →
      e.All (fun t => P t ∧ isHead t = true) fun t => P t ∧ isWord t = true
  | .empty hhead _ _, h =>
      .call ⟨h _ List.mem_cons_self, hhead⟩ (by simp)
  | .applied hhead _ hargs _, h =>
      .call ⟨h _ List.mem_cons_self, hhead⟩ (all_of_arguments hargs fun t ht => h t (by simp [ht]))

theorem all_of_arguments {P : Token → Prop} {ts : List Token} {as : List Phrase} :
    Arguments ts as → (∀ t ∈ ts, P t) →
      ∀ a ∈ as, a.All (fun t => P t ∧ isHead t = true) fun t => P t ∧ isWord t = true
  | .last ha, h => List.forall_mem_singleton.mpr (all_of_argument ha h)
  | .more ha _ has, h =>
      List.forall_mem_cons.mpr
        ⟨all_of_argument ha fun t ht => h t (by simp [ht]),
          all_of_arguments has fun t ht => h t (by simp [ht])⟩

theorem all_of_argument {P : Token → Prop} {ts : List Token} {a : Phrase} :
    Argument ts a → (∀ t ∈ ts, P t) →
      a.All (fun t => P t ∧ isHead t = true) fun t => P t ∧ isWord t = true
  | .expression he, h => all_of_expression he h
  | .word hword, h => .word ⟨h _ List.mem_cons_self, hword⟩

end

theorem headErrors_eq_nil {head : Token} (hhead : isHead head = true)
    (h : Phrase.headErrors head = []) : ∃ op, head.kind = .operator op := by
  cases hkind : head.kind <;> simp_all [isHead, Phrase.headErrors]

/-- A sentence without unknown heads has operators for heads. -/
theorem operatorHeaded_of_expression {ts : List Token} {e : Phrase} (he : Expression ts e)
    (hnone : e.unknownHeads = []) : e.OperatorHeaded := by
  have hall := all_of_expression (P := fun _ => True) he fun _ _ => trivial
  clear he
  induction e using Phrase.induction with
  | call head args ih =>
    cases hall with
    | call hhead hargs =>
      rw [Phrase.unknownHeads, List.append_eq_nil_iff, Phrase.unknownAmong_eq_nil_iff] at hnone
      exact .call (headErrors_eq_nil hhead.2 hnone.1) fun a ha =>
        ih a ha (hnone.2 a ha) (hargs a ha)
  | word t => exact .word trivial

/-- Nothing is missing from the node of a sentence without unknown heads. -/
theorem intact_of_expression {ts : List Token} {e : Phrase} (he : Expression ts e)
    (hnone : e.unknownHeads = []) : e.node.Intact := by
  have hall := all_of_expression (P := fun _ => True) he fun _ _ => trivial
  clear he
  induction e using Phrase.induction with
  | call head args ih =>
    cases hall with
    | call hhead hargs =>
      rw [Phrase.unknownHeads, List.append_eq_nil_iff, Phrase.unknownAmong_eq_nil_iff] at hnone
      obtain ⟨op, hop⟩ := headErrors_eq_nil hhead.2 hnone.1
      rw [Phrase.node, Phrase.headNode, hop]
      refine .call ?_
      intro n hn
      obtain ⟨a, ha, rfl⟩ := Phrase.mem_nodes.mp hn
      exact ih a ha (hnone.2 a ha) (hargs a ha)
  | word t =>
    cases hall with
    | word hword =>
      rw [Phrase.node, Phrase.wordNode]
      have hkind := hword.2
      unfold isWord at hkind
      cases hk : t.kind <;> simp_all <;> constructor

end Grammar

end FilterQuery
