/-
FilterQuery.Proofs.Acceptance — the reader accepts exactly its grammar.

The reader recovers from every mistake, looks one token ahead, and skips
calls that are nested too deep; the grammar knows none of this. Still the
two agree, and the errors tell where: a sequence of tokens is a sentence
within the limit exactly if nothing is reported but heads that name no
operator (`Parsed.ofTokens_accepts_grammar`).

## How the proof goes

That every sentence is accepted is an induction over its derivation
(`call_of_expression`). What follows an argument decides whether a name
begins a call, so the statement for arguments has a separator behind
them, and the one for argument lists the closing parenthesis.

That nothing else is accepted is an induction over the reading
(`sentence_of_clean`). A state is `Clean` if nothing but unknown operators
has been reported. Errors only grow, so a clean end makes every state on
the way clean, and each step that recovers from something reports it. The
one exception is a call nested too deep: it is reported only once, so the
claim is about readings that have not reported it yet.
-/
import FilterQuery.Proofs.Reading

namespace FilterQuery

open Grammar Parse

namespace Parse

/-! ## 1. Heads and words -/

theorem callNode_eq_headNode (head : Token) (args : List Node) :
    callNode head args = Phrase.headNode head args := by
  unfold callNode Phrase.headNode
  cases head.kind <;> rfl

theorem State.announce_eq (s : State) (head : Token) :
    s.announce head = { s with errors := (Phrase.headErrors head).reverse ++ s.errors } := by
  unfold State.announce Phrase.headErrors
  cases head.kind <;> rfl

/-- A head in front of an opening parenthesis begins a call. -/
theorem beginsCall_of_isHead {head opening : Token} (ts : List Token)
    (hhead : isHead head = true) (hopen : opening.kind = .openParen) :
    beginsCall head (opening :: ts) = true := by
  obtain ⟨kind, lexeme, p⟩ := head
  cases kind <;> simp_all [isHead, beginsCall, opensParen]

theorem isHead_of_beginsCall {head : Token} {ts : List Token}
    (h : beginsCall head ts = true) : isHead head = true := by
  obtain ⟨kind, lexeme, p⟩ := head
  cases kind <;> simp_all [isHead, beginsCall]

/-- A single token in front of a separator begins no call. -/
theorem beginsCall_of_isWord {t sep : Token} {ts : List Token}
    (ht : isWord t = true) (hsep : isSeparator sep = true) :
    beginsCall t (sep :: ts) = false := by
  obtain ⟨kind, lexeme, p⟩ := t
  obtain ⟨kind', lexeme', p'⟩ := sep
  cases kind <;> cases kind' <;> simp_all [isWord, isSeparator, beginsCall, opensParen]

/-- A sentence begins with a head and an opening parenthesis. -/
theorem begins_of_expression {ts : List Token} {e : Phrase} (h : Expression ts e) :
    ∃ head opening us, ts = head :: opening :: us ∧ isHead head = true ∧
      opening.kind = .openParen := by
  cases h with
  | empty hhead hopen _ => exact ⟨_, _, _, rfl, hhead, hopen⟩
  | applied hhead hopen _ _ => exact ⟨_, _, _, rfl, hhead, hopen⟩

/-- No argument begins with a closing parenthesis. -/
theorem closesParen_of_arguments {ts us : List Token} {as : List Phrase}
    (h : Arguments ts as) : closesParen (ts ++ us) = false := by
  have hargument : ∀ {ts vs : List Token} {a : Phrase}, Argument ts a →
      closesParen (ts ++ vs) = false := by
    intro ts vs a ha
    cases ha with
    | expression he =>
      obtain ⟨⟨kind, lexeme, p⟩, opening, ws, rfl, hhead, _⟩ := begins_of_expression he
      cases kind <;> simp_all [isHead, closesParen]
    | @word t ht =>
      obtain ⟨kind, lexeme, p⟩ := t
      cases kind <;> simp_all [isWord, closesParen]
  cases h with
  | last ha => exact hargument ha
  | more ha _ _ =>
    rw [List.append_assoc]
    exact hargument ha

/-! ## 2. Every sentence is accepted -/

mutual

/-- A call of the grammar is read as its node, with one error for each head in
it that names no operator. -/
theorem call_of_expression {b : Bounds} {ts : List Token} {e : Phrase} :
    Expression ts e → ∀ (head : Token) (us : List Token) (depth : Nat) (rest : List Token)
      (errors : List SyntaxError) (cut : Bool), ts = head :: us →
      depth + e.nesting ≤ b.limit →
      call b depth head ⟨us ++ rest, errors, cut⟩ =
        (e.node, ⟨rest, e.unknownHeads.reverse ++ errors, cut⟩)
  | @Expression.empty head _ _ _ hopen hclose, _, _, depth, rest, errors, cut, hts, hdepth => by
      obtain ⟨rfl, rfl⟩ := List.cons.inj hts
      have hlimit : ¬ b.limit ≤ depth := by
        simp only [Phrase.nesting] at hdepth
        omega
      rw [call_eq]
      simp [opensParen, closesParen, hopen, hclose, hlimit, State.announce_eq,
        callNode_eq_headNode, Phrase.node, Phrase.nodes, Phrase.unknownHeads,
        Phrase.unknownAmong]
  | @Expression.applied head _ closing _ _ _ hopen hargs hclose, _, _, depth, rest, errors,
      cut, hts, hdepth => by
      obtain ⟨rfl, rfl⟩ := List.cons.inj hts
      simp only [Phrase.nesting] at hdepth
      have hlimit : ¬ b.limit ≤ depth := by omega
      have hread := arguments_of_arguments (b := b) hargs depth closing rest
        ((Phrase.headErrors head).reverse ++ errors) cut hclose (by omega)
      rw [call_eq]
      simp [opensParen, hopen, hlimit, closesParen_of_arguments hargs, State.announce_eq,
        hread, callNode_eq_headNode, Phrase.node, Phrase.unknownHeads]

/-- The arguments of a call are read as their nodes. -/
theorem arguments_of_arguments {b : Bounds} {ts : List Token} {as : List Phrase} :
    Arguments ts as → ∀ (depth : Nat) (closing : Token) (rest : List Token)
      (errors : List SyntaxError) (cut : Bool), closing.kind = .closeParen →
      depth + Phrase.nestingAmong as < b.limit →
      arguments b depth [] ⟨ts ++ closing :: rest, errors, cut⟩ =
        (Phrase.nodes as, ⟨rest, (Phrase.unknownAmong as).reverse ++ errors, cut⟩)
  | .last ha, depth, closing, rest, errors, cut, hclose, hdepth => by
      simp only [Phrase.nestingAmong] at hdepth
      have hsep : isSeparator closing = true := by simp [isSeparator, hclose]
      have hread := argument_of_argument (b := b) ha depth closing rest errors cut hsep (by omega)
      rw [arguments_eq]
      simp [hread, separator_of_isSeparator b rest _ cut hsep, hclose, Phrase.nodes,
        Phrase.unknownAmong]
  | @Arguments.more _ us comma a _ ha hcomma has, depth, closing, rest, errors, cut, hclose,
      hdepth => by
      simp only [Phrase.nestingAmong] at hdepth
      have hsep : isSeparator comma = true := by simp [isSeparator, hcomma]
      have hread := argument_of_argument (b := b) ha depth comma (us ++ closing :: rest)
        errors cut hsep (by omega)
      have hnext := separator_of_isSeparator b (us ++ closing :: rest)
        (a.unknownHeads.reverse ++ errors) cut hsep
      rw [List.append_assoc, List.cons_append, arguments_more]
      · rw [hread, hnext]
        rw [arguments_of_arguments has depth closing rest _ cut hclose (by omega)]
        simp [Phrase.nodes, Phrase.unknownAmong]
      · rw [hread, hnext]
        simp [hcomma]

/-- An argument in front of a separator is read as its node. -/
theorem argument_of_argument {b : Bounds} {ts : List Token} {a : Phrase} :
    Argument ts a → ∀ (depth : Nat) (sep : Token) (rest : List Token)
      (errors : List SyntaxError) (cut : Bool), isSeparator sep = true →
      depth + a.nesting < b.limit →
      argument b depth ⟨ts ++ sep :: rest, errors, cut⟩ =
        (a.node, ⟨sep :: rest, a.unknownHeads.reverse ++ errors, cut⟩)
  | .expression he, depth, sep, rest, errors, cut, hsep, hdepth => by
      obtain ⟨head, opening, us, hts, hhead, hopen⟩ := begins_of_expression he
      rw [argument_of_beginsCall (by rw [hts]; rfl)
        (beginsCall_of_isHead (us ++ sep :: rest) hhead hopen)]
      exact call_of_expression he head (opening :: us) (depth + 1) (sep :: rest) errors cut hts
        (by omega)
  | .word ht, depth, sep, rest, errors, cut, hsep, _ =>
      argument_of_isWord rfl ht (beginsCall_of_isWord ht hsep)

end

/-! ## 3. Nothing else is accepted -/

/-- Whether no error but an unknown operator has been found. -/
def State.Clean (s : State) : Prop := ∀ e ∈ s.errors, e.isUnknownOperator = true

theorem State.Clean.of_grows {s s' : State} (h : s'.Clean) (hgrows : s.Grows s') : s.Clean :=
  fun e he => h e (hgrows.errors.subset he)

/-- A clean reading has reported no limit, so it has skipped nothing. -/
theorem State.Clean.cut_eq_false {s s' : State} (h : s'.Clean) (hgrows : s.Grows s')
    (hcut : s.cut = false) : s'.cut = false := by
  cases hcut' : s'.cut with
  | false => rfl
  | true =>
    rcases hgrows.cut hcut' with htrue | ⟨limit, p, hmem⟩
    · rw [hcut] at htrue
      exact absurd htrue Bool.false_ne_true
    · exact absurd (h _ hmem) Bool.false_ne_true

theorem State.not_clean_report {s : State} {e : SyntaxError} (he : e.isUnknownOperator = false) :
    ¬ (s.report e).Clean := by
  intro h
  have := h e List.mem_cons_self
  rw [he] at this
  exact Bool.false_ne_true this

theorem State.not_clean_unexpected {s : State} {b : Bounds} {x : Expected} :
    ¬ (s.unexpected b x).Clean := by
  unfold State.unexpected
  split <;> exact State.not_clean_report rfl

/-- Without an error the next token is a separator, and it is taken. -/
theorem separator_of_clean {b : Bounds} {s : State} (h : (separator b s).2.Clean) :
    ∃ t ts, s.rest = t :: ts ∧ isSeparator t = true ∧
      separator b s = (t.kind == .comma, { s with rest := ts }) := by
  obtain ⟨rest, errors, cut⟩ := s
  cases rest with
  | nil =>
    rw [separator_of_nil rfl] at h
    exact absurd h State.not_clean_unexpected
  | cons t ts =>
    cases ht : isSeparator t with
    | true => exact ⟨t, ts, rfl, ht, separator_of_isSeparator b ts errors cut ht⟩
    | false =>
      have hreported : (State.unexpected ⟨t :: ts, errors, cut⟩ b .separator).Grows
          (separator b ⟨t :: ts, errors, cut⟩).2 := by
        unfold separator
        simp only [State.expectSeparator, ht, Bool.false_eq_true, if_false]
        split
        · exact ((State.Grows.refl _).withRest []).trans (State.grows_unexpected _ _ _)
        · exact (State.Grows.refl _).withRest _
      exact absurd (h.of_grows hreported) State.not_clean_unexpected

/-- What a clean reading has taken is a sentence of the grammar, and its calls
are nested no deeper than the limit. -/
theorem sentence_of_clean (b : Bounds) :
    (∀ depth head s, isHead head = true → s.cut = false → (call b depth head s).2.Clean →
      ∃ ts e, s.rest = ts ++ (call b depth head s).2.rest ∧ Expression (head :: ts) e ∧
        depth + e.nesting ≤ b.limit) ∧
    (∀ depth s, depth < b.limit → s.cut = false → (argument b depth s).2.Clean →
      ∃ ts a, s.rest = ts ++ (argument b depth s).2.rest ∧ Argument ts a ∧
        depth + a.nesting < b.limit) ∧
    (∀ depth s, depth < b.limit → s.cut = false → (arguments b depth [] s).2.Clean →
      ∃ ts closing as, s.rest = ts ++ closing :: (arguments b depth [] s).2.rest ∧
        closing.kind = .closeParen ∧ Arguments ts as ∧
        depth + Phrase.nestingAmong as < b.limit) := by
  apply induction
    (C := fun depth head s r => isHead head = true → s.cut = false → r.2.Clean →
      ∃ ts e, s.rest = ts ++ r.2.rest ∧ Expression (head :: ts) e ∧ depth + e.nesting ≤ b.limit)
    (A := fun depth s r => depth < b.limit → s.cut = false → r.2.Clean →
      ∃ ts a, s.rest = ts ++ r.2.rest ∧ Argument ts a ∧ depth + a.nesting < b.limit)
    (L := fun depth s r => depth < b.limit → s.cut = false → r.2.Clean →
      ∃ ts closing as, s.rest = ts ++ closing :: r.2.rest ∧ closing.kind = .closeParen ∧
        Arguments ts as ∧ depth + Phrase.nestingAmong as < b.limit)
  case headless =>
    intro depth head s _ _ _ hclean
    exact absurd hclean State.not_clean_unexpected
  case skipped =>
    intro depth head s _ _ _ hcut hclean
    have hannounced : (s.announce head).cut = false := by
      rw [State.announce_eq]
      exact hcut
    have hreported : ((s.announce head).reportDepth b head.position).Clean := hclean
    unfold State.reportDepth at hreported
    rw [hannounced, if_neg Bool.false_ne_true] at hreported
    exact absurd hreported (State.not_clean_report (s := s.announce head) rfl)
  case empty =>
    intro depth head s hopen hdepth hclose hhead _ _
    obtain ⟨opening, hrest, hopening⟩ := cons_of_opensParen hopen
    obtain ⟨closing, htail, hclosing⟩ := cons_of_closesParen hclose
    refine ⟨[opening, closing], .call head [], ?_, .empty hhead hopening hclosing, ?_⟩
    · rw [hrest, htail]
      rfl
    · simp only [Phrase.nesting, Phrase.nestingAmong]
      omega
  case applied =>
    intro depth head s hopen hdepth _ ih hhead hcut hclean
    obtain ⟨opening, hrest, hopening⟩ := cons_of_opensParen hopen
    have hannounced : (s.announce head).cut = false := by
      rw [State.announce_eq]
      exact hcut
    obtain ⟨ts, closing, args, htail, hclosing, hargs, hnesting⟩ := ih hdepth hannounced hclean
    refine ⟨opening :: (ts ++ [closing]), .call head args, ?_,
      .applied hhead hopening hargs hclosing, ?_⟩
    · rw [hrest]
      simpa using htail
    · simp only [Phrase.nesting]
      omega
  case ended =>
    intro depth s _ _ _ hclean
    exact absurd hclean State.not_clean_unexpected
  case nested =>
    intro depth s t ts hrest hbegins ih _ hcut hclean
    obtain ⟨us, e, hus, he, hnesting⟩ := ih (isHead_of_beginsCall hbegins) hcut hclean
    refine ⟨t :: us, e, ?_, .expression he, by omega⟩
    rw [hrest, List.cons_append]
    exact congrArg (t :: ·) hus
  case word =>
    intro depth s t ts hrest hword _ hdepth _ _
    exact ⟨[t], .word t, hrest, .word hword, hdepth⟩
  case missing =>
    intro depth s t ts _ _ _ _ hclean
    exact absurd hclean (State.not_clean_report rfl)
  case group =>
    intro depth s t ts _ _ _ _ hclean
    have hreported : (s.unexpected b .argument).Clean := hclean
    exact absurd hreported State.not_clean_unexpected
  case last =>
    intro depth s ih hlast hdepth hcut hclean
    obtain ⟨ts, a, hrest, ha, hnesting⟩ :=
      ih hdepth hcut (hclean.of_grows (grows_separator b _))
    obtain ⟨sep, us, hsep, hkind, hnext⟩ := separator_of_clean hclean
    rw [hnext] at hlast ⊢
    refine ⟨ts, sep, [a], by rw [hrest, hsep], ?_, .last ha, ?_⟩
    · cases hk : sep.kind <;> simp_all [isSeparator]
    · simp only [Phrase.nestingAmong]
      omega
  case more =>
    intro depth s ih hmore ihrest hdepth hcut hclean
    have hnextclean := hclean.of_grows ((grows b).2.2 depth _)
    have hgrows := ((grows b).2.1 depth s).trans (grows_separator b _)
    obtain ⟨ts, a, hrest, ha, hnesting⟩ :=
      ih hdepth hcut (hnextclean.of_grows (grows_separator b _))
    obtain ⟨us, closing, as, hus, hclosing, has, hnestings⟩ :=
      ihrest hdepth (hnextclean.cut_eq_false hgrows hcut) hclean
    obtain ⟨comma, vs, hsep, _, hnext⟩ := separator_of_clean hnextclean
    have hcomma : comma.kind = .comma := by
      rw [hnext] at hmore
      exact eq_of_beq hmore
    have hvs : (separator b (argument b depth s).2).2.rest = vs := by rw [hnext]
    refine ⟨ts ++ comma :: us, closing, a :: as, ?_, hclosing, .more ha hcomma has, ?_⟩
    · rw [hrest, hsep, ← hvs, hus]
      simp
    · simp only [Phrase.nestingAmong]
      omega

/-! ## 4. Whole token sequences -/

theorem State.grows_expectEnd (s : State) : s.Grows s.expectEnd := by
  unfold State.expectEnd
  split
  · exact State.grows_report _ _
  · exact State.Grows.refl s

/-- A sentence within the limit is read as the node of its tree. -/
theorem query_of_expression {b : Bounds} {ts : List Token} {e : Phrase} (h : Expression ts e)
    (hdepth : e.nesting ≤ b.limit) :
    query b ts =
      { ast := if e.node.isInvalid then none else some e.node, errors := e.unknownHeads } := by
  obtain ⟨head, opening, us, rfl, hhead, hopen⟩ := begins_of_expression h
  have hread := call_of_expression (b := b) h head (opening :: us) 0 [] [] false rfl (by omega)
  rw [List.append_nil, List.append_nil] at hread
  rw [query_of_beginsCall (beginsCall_of_isHead us hhead hopen), hread]
  simp [State.expectEnd]

/-- Where only unknown operators are reported, the tokens are a sentence
within the limit. -/
theorem expression_of_query {b : Bounds} {ts : List Token}
    (h : ∀ x ∈ (query b ts).errors, x.isUnknownOperator = true) :
    ∃ e, Expression ts e ∧ e.nesting ≤ b.limit := by
  cases ts with
  | nil => exact absurd (h _ List.mem_cons_self) Bool.false_ne_true
  | cons t ts =>
    cases hbegins : beginsCall t ts with
    | false =>
      rw [query_of_not_beginsCall hbegins] at h
      exact absurd (h _ List.mem_cons_self) Bool.false_ne_true
    | true =>
      rw [query_of_beginsCall hbegins] at h
      have hend : (call b 0 t ⟨ts, [], false⟩).2.expectEnd.Clean :=
        fun x hx => h x (List.mem_reverse.mpr hx)
      obtain ⟨us, e, hus, he, hnesting⟩ := (sentence_of_clean b).1 0 t ⟨ts, [], false⟩
        (isHead_of_beginsCall hbegins) rfl (hend.of_grows (State.grows_expectEnd _))
      refine ⟨e, ?_, by omega⟩
      have hrest : (call b 0 t ⟨ts, [], false⟩).2.rest = [] := by
        cases hr : (call b 0 t ⟨ts, [], false⟩).2.rest with
        | nil => rfl
        | cons x xs =>
          unfold State.expectEnd at hend
          rw [hr] at hend
          exact absurd hend (State.not_clean_report rfl)
      rw [hrest, List.append_nil] at hus
      rwa [show ts = us from hus]

end Parse

/-- Where nothing is reported, the result is the node of a sentence without
unknown heads. -/
theorem Parsed.sentence_of_errors_eq_nil {maxDepth : Nat} {tokens : List Token} {stop : Position}
    (hnone : (Parsed.ofTokens maxDepth tokens stop).errors = []) :
    ∃ e, Expression tokens e ∧ e.nesting ≤ min maxDepth depthCeiling ∧ e.unknownHeads = [] ∧
      (Parsed.ofTokens maxDepth tokens stop).ast = some e.node := by
  have hclean : ∀ x ∈ (Parsed.ofTokens maxDepth tokens stop).errors,
      x.isUnknownOperator = true := by simp [hnone]
  obtain ⟨e, he, hnesting⟩ : ∃ e, Expression tokens e ∧ e.nesting ≤ min maxDepth depthCeiling :=
    Parse.expression_of_query hclean
  have hread : Parsed.ofTokens maxDepth tokens stop =
      { ast := if e.node.isInvalid then none else some e.node, errors := e.unknownHeads } :=
    Parse.query_of_expression he hnesting
  rw [hread] at hnone ⊢
  have hintact := intact_of_expression he hnone
  exact ⟨e, he, hnesting, hnone, by simp [hintact.isInvalid_eq_false]⟩

/-- **The reader accepts exactly its grammar.** Whatever the tokens are and
however deep calls may be nested:

* nothing but unknown operators is reported exactly for the sentences within
  the limit;
* for such a sentence, with any tree, the errors are one for each head in the
  tree that names no operator, in the order of the text, and the result is
  the node of the tree, or none if the head of the whole is unknown;
* so nothing at all is reported exactly for the sentences within the limit
  in which every head is an operator, and nothing is missing from the tree. -/
theorem Parsed.ofTokens_accepts_grammar (maxDepth : Nat) (tokens : List Token)
    (stop : Position) :
    ((∀ x ∈ (Parsed.ofTokens maxDepth tokens stop).errors, x.isUnknownOperator = true) ↔
      ∃ e, Expression tokens e ∧ e.nesting ≤ min maxDepth depthCeiling) ∧
    (∀ e, Expression tokens e → e.nesting ≤ min maxDepth depthCeiling →
      Parsed.ofTokens maxDepth tokens stop =
        { ast := if e.node.isInvalid then none else some e.node, errors := e.unknownHeads }) ∧
    ((Parsed.ofTokens maxDepth tokens stop).errors = [] ↔
      ∃ e, Expression tokens e ∧ e.nesting ≤ min maxDepth depthCeiling ∧ e.OperatorHeaded) ∧
    (∀ e, Expression tokens e → e.nesting ≤ min maxDepth depthCeiling → e.OperatorHeaded →
      (Parsed.ofTokens maxDepth tokens stop).ast = some e.node ∧ e.node.Intact) := by
  have hsentence : ∀ e, Expression tokens e → e.nesting ≤ min maxDepth depthCeiling →
      Parsed.ofTokens maxDepth tokens stop =
        { ast := if e.node.isInvalid then none else some e.node, errors := e.unknownHeads } :=
    fun e he hnesting => query_of_expression he hnesting
  have hclean : (∀ x ∈ (Parsed.ofTokens maxDepth tokens stop).errors,
      x.isUnknownOperator = true) →
      ∃ e, Expression tokens e ∧ e.nesting ≤ min maxDepth depthCeiling :=
    fun h => expression_of_query h
  refine ⟨⟨hclean, ?_⟩, hsentence, ⟨?_, ?_⟩, ?_⟩
  · rintro ⟨e, he, hnesting⟩ x hx
    rw [hsentence e he hnesting] at hx
    exact e.isUnknownOperator_of_mem x hx
  · intro hnone
    obtain ⟨e, he, hnesting, hheads, _⟩ := sentence_of_errors_eq_nil hnone
    exact ⟨e, he, hnesting, operatorHeaded_of_expression he hheads⟩
  · rintro ⟨e, he, hnesting, hheaded⟩
    rw [hsentence e he hnesting]
    exact hheaded.unknownHeads_eq_nil
  · intro e he hnesting hheaded
    have hintact := intact_of_expression he hheaded.unknownHeads_eq_nil
    rw [hsentence e he hnesting]
    simp [hintact.isInvalid_eq_false, hintact]

/-- `f(g())` is a sentence with two unknown heads and no node. -/
theorem Parsed.ofTokens_nested_unknown :
    Parsed.ofTokens 2
        [⟨.identifier "f", "f", ⟨0, 1, 1⟩⟩, ⟨.openParen, "(", ⟨1, 1, 2⟩⟩,
          ⟨.identifier "g", "g", ⟨2, 1, 3⟩⟩, ⟨.openParen, "(", ⟨3, 1, 4⟩⟩,
          ⟨.closeParen, ")", ⟨4, 1, 5⟩⟩, ⟨.closeParen, ")", ⟨5, 1, 6⟩⟩] ⟨6, 1, 7⟩ =
      { ast := none
        errors := [.unknownOperator "f" ⟨0, 1, 1⟩, .unknownOperator "g" ⟨2, 1, 3⟩] } :=
  (Parsed.ofTokens_accepts_grammar _ _ _).2.1
    (.call ⟨.identifier "f", "f", ⟨0, 1, 1⟩⟩ [.call ⟨.identifier "g", "g", ⟨2, 1, 3⟩⟩ []])
    (.applied rfl rfl (.last (.expression (.empty rfl rfl rfl))) rfl) (by decide)

end FilterQuery
