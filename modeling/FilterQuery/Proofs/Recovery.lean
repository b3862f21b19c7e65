/-
FilterQuery.Proofs.Recovery — a mistake in an argument stays in it.

After a mistake, reading goes on at the next separator. So whatever stands
in the place of one argument, as long as its parentheses match and it has
no comma outside of them (`Enclosed`), the other arguments of the call are
read as if nothing had happened: their nodes are the same, and so are the
errors reported for them (`Parsed.ofTokens_local`).

## How the proof goes

A reading that finds the separator it looks for among the tokens it has
does not depend on what stands behind them, on what was reported before,
or on where the text ends (`within`). Hence each argument with the
separator behind it (`Item`) is read as it would be if there were nothing
else, and the reading of the list is put together from the readings of
its items (`arguments_of_items`).

The one thing that goes from one argument to the next is the mark that
the nesting limit has been reported. This is why the theorem is about
readings that report no such thing.
-/
import FilterQuery.Proofs.Nesting

namespace FilterQuery

namespace Parse

open Grammar

/-! ## 1. Segments -/

/-- The number of opening parentheses. -/
def opens (ts : List Token) : Nat := ts.countP fun t => t.kind == .openParen

/-- The number of closing parentheses. -/
def closes (ts : List Token) : Nat := ts.countP fun t => t.kind == .closeParen

/-- Whether tokens may stand in the place of an argument without being mistaken
for anything else: no part of them from the start on closes more than it opens,
all of them close as much as they open, and where a comma stands, something is
open. They need not make any sense. -/
structure Enclosed (ts : List Token) : Prop where
  closes_le : ∀ i ≤ ts.length, closes (ts.take i) ≤ opens (ts.take i)
  balanced : closes ts = opens ts
  comma : ∀ i (h : i < ts.length), ts[i].kind = .comma → closes (ts.take i) < opens (ts.take i)

instance (ts : List Token) : Decidable (Enclosed ts) :=
  decidable_of_iff
    ((∀ i ≤ ts.length, closes (ts.take i) ≤ opens (ts.take i)) ∧ closes ts = opens ts ∧
      ∀ i (h : i < ts.length), ts[i].kind = .comma → closes (ts.take i) < opens (ts.take i))
    ⟨fun h => ⟨h.1, h.2.1, h.2.2⟩, fun h => ⟨h.closes_le, h.balanced, h.comma⟩⟩

theorem opens_cons (t : Token) (ts : List Token) :
    opens (t :: ts) = opens ts + if t.kind = .openParen then 1 else 0 := by
  rw [opens, List.countP_cons]
  simp [opens]

theorem closes_cons (t : Token) (ts : List Token) :
    closes (t :: ts) = closes ts + if t.kind = .closeParen then 1 else 0 := by
  rw [closes, List.countP_cons]
  simp [closes]

/-- Whether tokens close just the groups that are open in front of them, and hold
no separator of the list around these. -/
structure Closing (depth : Nat) (ts : List Token) : Prop where
  closes_le : ∀ i ≤ ts.length, closes (ts.take i) ≤ opens (ts.take i) + depth
  total : closes ts = opens ts + depth
  comma : ∀ i (h : i < ts.length), ts[i].kind = .comma →
    closes (ts.take i) < opens (ts.take i) + depth

theorem Enclosed.closing {ts : List Token} (h : Enclosed ts) : Closing 0 ts :=
  ⟨h.closes_le, h.balanced, h.comma⟩

theorem opens_cons_eq_add (t : Token) (ts : List Token) :
    opens (t :: ts) = opens [t] + opens ts := by
  rw [opens_cons, opens_cons]
  simp [opens, Nat.add_comm]

theorem closes_cons_eq_add (t : Token) (ts : List Token) :
    closes (t :: ts) = closes [t] + closes ts := by
  rw [closes_cons, closes_cons]
  simp [closes, Nat.add_comm]

/-- The first of some closing tokens changes how many groups are open, and the
others close these. -/
theorem Closing.tail {depth depth' : Nat} {t : Token} {ts : List Token}
    (h : Closing depth (t :: ts))
    (hdepth : depth' + closes [t] = depth + opens [t]) : Closing depth' ts := by
  refine ⟨?_, ?_, ?_⟩
  · intro i hi
    have hle := h.closes_le (i + 1) (Nat.succ_le_succ hi)
    rw [List.take_succ_cons, closes_cons_eq_add, opens_cons_eq_add] at hle
    omega
  · have htotal := h.total
    rw [closes_cons_eq_add, opens_cons_eq_add] at htotal
    omega
  · intro i hi hkind
    have hlt := h.comma (i + 1) (Nat.succ_lt_succ hi) hkind
    rw [List.take_succ_cons, closes_cons_eq_add, opens_cons_eq_add] at hlt
    omega

/-- A search that starts inside some groups passes over the tokens that close
just these. -/
theorem synchronize_append_of_closing {depth : Nat} {ts : List Token} (h : Closing depth ts)
    (us : List Token) : synchronize depth (ts ++ us) = synchronize 0 us := by
  induction ts generalizing depth with
  | nil =>
    obtain rfl : depth = 0 := by simpa [opens, closes] using h.total.symm
    rfl
  | cons t ts ih =>
    obtain ⟨kind, lexeme, p⟩ := t
    cases kind with
    | openParen => exact ih (h.tail rfl)
    | closeParen =>
      have hopen : 1 ≤ 0 + depth := h.closes_le 1 (by simp)
      obtain ⟨depth, rfl⟩ : ∃ d, depth = d + 1 := ⟨depth - 1, by omega⟩
      exact ih (h.tail rfl)
    | comma =>
      have hopen : 0 < 0 + depth := h.comma 0 (by simp) rfl
      obtain ⟨depth, rfl⟩ : ∃ d, depth = d + 1 := ⟨depth - 1, by omega⟩
      exact ih (h.tail rfl)
    | _ => exact ih (h.tail rfl)

/-! ## 2. More tokens behind -/

theorem synchronize_append {depth : Nat} {ts : List Token} (h : synchronize depth ts ≠ [])
    (us : List Token) : synchronize depth (ts ++ us) = synchronize depth ts ++ us := by
  induction ts generalizing depth with
  | nil => exact absurd rfl h
  | cons t ts ih =>
    obtain ⟨kind, lexeme, p⟩ := t
    cases kind with
    | openParen => exact ih h
    | closeParen =>
      cases depth with
      | zero => rfl
      | succ depth => exact ih h
    | comma =>
      cases depth with
      | zero => rfl
      | succ depth => exact ih h
    | _ => exact ih h

theorem skipBalanced_append {opened : Nat} {ts : List Token}
    (h : skipBalanced opened ts ≠ []) (us : List Token) :
    skipBalanced opened (ts ++ us) = skipBalanced opened ts ++ us := by
  induction ts generalizing opened with
  | nil => exact absurd rfl h
  | cons t ts ih =>
    obtain ⟨kind, lexeme, p⟩ := t
    cases kind with
    | openParen => exact ih h
    | closeParen =>
      simp only [List.cons_append, skipBalanced] at h ⊢
      split
      · rfl
      · next hopened =>
        rw [if_neg hopened] at h
        exact ih h
    | _ => exact ih h

theorem opensParen_append {ts : List Token} (h : ts ≠ []) (us : List Token) :
    opensParen (ts ++ us) = opensParen ts := by
  cases ts with
  | nil => exact absurd rfl h
  | cons t ts => rfl

theorem closesParen_append {ts : List Token} (h : ts ≠ []) (us : List Token) :
    closesParen (ts ++ us) = closesParen ts := by
  cases ts with
  | nil => exact absurd rfl h
  | cons t ts => rfl

theorem beginsCall_append {t : Token} {ts : List Token} (h : ts ≠ []) (us : List Token) :
    beginsCall t (ts ++ us) = beginsCall t ts := by
  unfold beginsCall
  rw [opensParen_append h]

theorem ne_nil_of_synchronize {depth : Nat} {ts : List Token} (h : synchronize depth ts ≠ []) :
    ts ≠ [] := by
  rintro rfl
  exact h rfl

/-- Where a list of arguments ends among some tokens, so does the first of them. -/
theorem synchronize_of_list {ts : List Token} (h : synchronize 1 ts ≠ []) :
    synchronize 0 ts ≠ [] := by
  intro hnil
  rw [← synchronize_skipBalanced 0 0, ← skipBalanced_synchronize 0, hnil] at h
  exact h rfl

/-- The same bounds with another end of the text. -/
def Bounds.withStop (b : Bounds) (stop : Position) : Bounds := { b with stop := stop }

namespace State

/-- A state as part of a longer reading: with more tokens behind those ahead, and
with errors that were reported before. -/
def within (s : State) (ts : List Token) (es : List SyntaxError) : State :=
  ⟨s.rest ++ ts, s.errors ++ es, s.cut⟩

variable (ts : List Token) (es : List SyntaxError)

theorem within_rest (s : State) : (s.within ts es).rest = s.rest ++ ts := rfl

theorem announce_within (s : State) (head : Token) :
    (s.within ts es).announce head = (s.announce head).within ts es := by
  obtain ⟨kind, lexeme, p⟩ := head
  cases kind <;> rfl

/-- What stands ahead of the tokens behind is no end of the text. -/
theorem unexpected_within {s : State} (hs : s.rest ≠ []) (b : Bounds) (stop : Position)
    (x : Expected) :
    (s.within ts es).unexpected (b.withStop stop) x = (s.unexpected b x).within ts es := by
  obtain ⟨rest, errors, cut⟩ := s
  cases rest with
  | nil => exact absurd rfl hs
  | cons t rest => rfl

theorem reportDepth_within (s : State) (b : Bounds) (stop p : Position) :
    (s.within ts es).reportDepth (b.withStop stop) p = (s.reportDepth b p).within ts es := by
  obtain ⟨rest, errors, cut⟩ := s
  cases cut <;> rfl

theorem expectSeparator_within {s : State} (hs : s.rest ≠ []) (b : Bounds) (stop : Position) :
    (s.within ts es).expectSeparator (b.withStop stop) =
      (s.expectSeparator b).within ts es := by
  obtain ⟨rest, errors, cut⟩ := s
  cases rest with
  | nil => exact absurd rfl hs
  | cons t rest =>
    simp only [expectSeparator, within_rest, List.cons_append]
    split <;> rfl

end State

/-- The next separator is taken in the same way. -/
theorem separator_within (b : Bounds) {s : State} (hs : synchronize 0 s.rest ≠ [])
    (stop : Position) (ts : List Token) (es : List SyntaxError) :
    separator (b.withStop stop) (s.within ts es) =
      ((separator b s).1, (separator b s).2.within ts es) := by
  obtain ⟨t, us, hsync⟩ := List.exists_cons_of_ne_nil hs
  have hlong : synchronize 0 (s.within ts es).rest = t :: (us ++ ts) := by
    rw [State.within_rest, synchronize_append hs, hsync, List.cons_append]
  rw [separator_of_synchronize_cons hsync, separator_of_synchronize_cons hlong,
    State.expectSeparator_within ts es (ne_nil_of_synchronize hs)]
  rfl

/-- **A reading that finds its separator does not look behind it**: it gives the
same whatever stands behind, whatever was reported before, and wherever the text
ends. -/
theorem reads_within (b : Bounds) (stop : Position) (ts : List Token) (es : List SyntaxError) :
    (∀ depth head (s : State), synchronize 0 s.rest ≠ [] →
      call (b.withStop stop) depth head (s.within ts es) =
        ((call b depth head s).1, (call b depth head s).2.within ts es)) ∧
    (∀ depth (s : State), synchronize 0 s.rest ≠ [] →
      argument (b.withStop stop) depth (s.within ts es) =
        ((argument b depth s).1, (argument b depth s).2.within ts es)) ∧
    ∀ depth (s : State), synchronize 1 s.rest ≠ [] →
      arguments (b.withStop stop) depth [] (s.within ts es) =
        ((arguments b depth [] s).1, (arguments b depth [] s).2.within ts es) := by
  apply induction (b := b)
    (C := fun depth head s r => synchronize 0 s.rest ≠ [] →
      call (b.withStop stop) depth head (s.within ts es) = (r.1, r.2.within ts es))
    (A := fun depth s r => synchronize 0 s.rest ≠ [] →
      argument (b.withStop stop) depth (s.within ts es) = (r.1, r.2.within ts es))
    (L := fun depth s r => synchronize 1 s.rest ≠ [] →
      arguments (b.withStop stop) depth [] (s.within ts es) = (r.1, r.2.within ts es))
  case headless =>
    intro depth head s hopen hsync
    have hne := ne_nil_of_synchronize hsync
    rw [call_of_headless ((opensParen_append hne ts).trans hopen), State.announce_within,
      State.unexpected_within ts es (by rwa [State.announce_rest])]
  case skipped =>
    intro depth head s hopen hdepth hsync
    have hne := ne_nil_of_synchronize hsync
    have hskip : skipBalanced 0 s.rest ≠ [] := by
      rw [← synchronize_group 0 hopen] at hsync
      exact ne_nil_of_synchronize hsync
    rw [call_of_limit_le (b := b.withStop stop) ((opensParen_append hne ts).trans hopen) hdepth,
      State.announce_within, State.reportDepth_within, State.within_rest,
      skipBalanced_append hskip]
    rfl
  case empty =>
    intro depth head s hopen hdepth hclose hsync
    have hne := ne_nil_of_synchronize hsync
    obtain ⟨opening, closing, rest, hs⟩ : ∃ opening closing rest,
        s.rest = opening :: closing :: rest := by
      obtain ⟨opening, hs, _⟩ := cons_of_opensParen hopen
      obtain ⟨closing, htail, _⟩ := cons_of_closesParen hclose
      exact ⟨opening, closing, _, by rw [hs, htail]⟩
    rw [call_of_closesParen (b := b.withStop stop) ((opensParen_append hne ts).trans hopen) hdepth,
      State.announce_within, State.within_rest, hs]
    · rfl
    · rw [State.within_rest, hs]
      rw [hs] at hclose
      exact hclose
  case applied =>
    intro depth head s hopen hdepth hclose ih hsync
    have hne := ne_nil_of_synchronize hsync
    rw [synchronize_of_opensParen 0 hopen] at hsync
    obtain ⟨opening, hs, _⟩ := cons_of_opensParen hopen
    have htail : (s.within ts es).rest.tail = s.rest.tail ++ ts := by
      rw [State.within_rest, hs]
      rfl
    rw [call_of_arguments (b := b.withStop stop) ((opensParen_append hne ts).trans hopen) hdepth
      (by rw [htail, closesParen_append (ne_nil_of_synchronize hsync), hclose]),
      State.announce_within, htail]
    have hread := ih hsync
    simp only [State.within] at hread ⊢
    rw [hread]
  case ended =>
    intro depth s hs hsync
    exact absurd hs (ne_nil_of_synchronize hsync)
  case nested =>
    intro depth s t us hs hbegins ih hsync
    rw [hs, synchronize_of_beginsCall hbegins] at hsync
    rw [argument_of_beginsCall (by rw [State.within_rest, hs, List.cons_append])
      ((beginsCall_append (ne_nil_of_synchronize hsync) ts).trans hbegins)]
    exact ih hsync
  case word =>
    intro depth s t us hs hword hbegins hsync
    rw [hs, synchronize_of_isWord us hword] at hsync
    rw [argument_of_isWord (by rw [State.within_rest, hs, List.cons_append]) hword
      ((beginsCall_append (ne_nil_of_synchronize hsync) ts).trans hbegins)]
    rfl
  case missing =>
    intro depth s t us hs hsep _
    rw [argument_of_isSeparator (by rw [State.within_rest, hs, List.cons_append]) hsep]
    rfl
  case group =>
    intro depth s t us hs hopen hsync
    rw [argument_of_openParen (by rw [State.within_rest, hs, List.cons_append]) hopen,
      State.unexpected_within ts es (ne_nil_of_synchronize hsync), State.within_rest,
      synchronize_append hsync]
    rfl
  case last =>
    intro depth s ih hlast hlist
    have hsync := synchronize_of_list hlist
    have hnext : synchronize 0 (argument b depth s).2.rest ≠ [] := by
      rwa [(rest_eq b).2.1]
    have hsep := separator_within b hnext stop ts es
    rw [arguments_last (by rw [ih hsync, hsep, hlast]), ih hsync, hsep]
  case more =>
    intro depth s ih hmore ihrest hlist
    have hsync := synchronize_of_list hlist
    have hnext : synchronize 0 (argument b depth s).2.rest ≠ [] := by
      rwa [(rest_eq b).2.1]
    have hsep := separator_within b hnext stop ts es
    have hbehind : synchronize 1 (separator b (argument b depth s).2).2.rest ≠ [] := by
      have hrest := separator_rest_of_synchronize (b := b) ((rest_eq b).2.1 depth s)
      rw [hmore, if_pos rfl] at hrest
      rwa [← synchronize_skipBalanced 0 0, hrest, synchronize_skipBalanced 0 0]
    rw [arguments_more (by rw [ih hsync, hsep, hmore]), ih hsync, hsep, ihrest hbehind]

/-! ## 3. Argument lists -/

/-- Tokens in the place of an argument, and the separator behind them. -/
structure Item where
  segment : List Token
  separator : Token
deriving Repr

namespace Item

/-- The tokens of an item. -/
def tokens (i : Item) : List Token := i.segment ++ [i.separator]

/-- What an item is read as if there are no other tokens: the node of the
argument, and the state behind the separator. -/
def read (limit : Nat) (i : Item) : Node × State :=
  let b : Bounds := ⟨limit, i.separator.position⟩
  let a := argument b 0 ⟨i.tokens, [], false⟩
  (a.1, (Parse.separator b a.2).2)

/-- The node of an item. -/
def node (limit : Nat) (i : Item) : Node := (i.read limit).1

/-- The errors reported for an item, in the order in which they are found. -/
def errors (limit : Nat) (i : Item) : List SyntaxError := (i.read limit).2.errors.reverse

end Item

/-- What stands between the parentheses of a call, together with the closing one:
segments with commas between them. -/
inductive ArgumentList : List Item → Prop
  | last {i : Item} (segment : Enclosed i.segment)
      (separator : i.separator.kind = .closeParen) : ArgumentList [i]
  | more {i : Item} {is : List Item} (segment : Enclosed i.segment)
      (separator : i.separator.kind = .comma) (rest : ArgumentList is) : ArgumentList (i :: is)

/-- A segment is as good as any other. -/
theorem ArgumentList.replace {before after : List Item} {segment segment' : List Token}
    {sep : Token} (h : ArgumentList (before ++ ⟨segment, sep⟩ :: after))
    (hsegment : Enclosed segment') : ArgumentList (before ++ ⟨segment', sep⟩ :: after) := by
  induction before with
  | nil =>
    cases h with
    | last _ hsep => exact .last hsegment hsep
    | more _ hsep hrest => exact .more hsegment hsep hrest
  | cons i before ih =>
    cases before with
    | nil =>
      cases h with
      | more hi hsep hrest => exact .more hi hsep (ih hrest)
    | cons j before =>
      cases h with
      | more hi hsep hrest => exact .more hi hsep (ih hrest)

/-- The search for a separator goes past the segment of an item. -/
theorem Item.synchronize_tokens {i : Item} (hsegment : Enclosed i.segment)
    (hsep : isSeparator i.separator = true) : synchronize 0 i.tokens = [i.separator] := by
  rw [tokens, synchronize_append_of_closing hsegment.closing, synchronize_of_isSeparator hsep]

/-- An item is read in the same way wherever it stands. -/
theorem separator_of_item {b : Bounds} {i : Item} (hsegment : Enclosed i.segment)
    (hsep : isSeparator i.separator = true) (ts : List Token) (es : List SyntaxError) :
    (argument b 0 ⟨i.tokens ++ ts, es, false⟩).1 = i.node b.limit ∧
    separator b (argument b 0 ⟨i.tokens ++ ts, es, false⟩).2 =
      (i.separator.kind == .comma,
        ⟨ts, (i.errors b.limit).reverse ++ es, (i.read b.limit).2.cut⟩) := by
  have hsync := Item.synchronize_tokens hsegment hsep
  let alone : Bounds := ⟨b.limit, i.separator.position⟩
  have hargument := (reads_within alone b.stop ts es).2.1 0 ⟨i.tokens, [], false⟩
    (by rw [hsync]; exact List.cons_ne_nil _ _)
  have hbehind : synchronize 0 (argument alone 0 ⟨i.tokens, [], false⟩).2.rest =
      [i.separator] := ((rest_eq alone).2.1 0 _).trans hsync
  have hseparator := separator_within alone (by rw [hbehind]; exact List.cons_ne_nil _ _)
    b.stop ts es
  have hbounds : alone.withStop b.stop = b := rfl
  have hstate : State.within ⟨i.tokens, [], false⟩ ts es = ⟨i.tokens ++ ts, es, false⟩ := rfl
  rw [hbounds] at hargument hseparator
  rw [← hstate, hargument, hseparator]
  refine ⟨rfl, ?_⟩
  rw [Item.errors, Item.read, List.reverse_reverse, separator_of_synchronize_cons hbehind]
  rfl

/-- **Arguments are read one by one**, if no limit is reported: the nodes are those
of the items, and so are the errors. -/
theorem arguments_of_items {b : Bounds} {items : List Item} (h : ArgumentList items)
    (ts : List Token) (es : List SyntaxError)
    (hcut : (arguments b 0 [] ⟨items.flatMap Item.tokens ++ ts, es, false⟩).2.cut = false) :
    arguments b 0 [] ⟨items.flatMap Item.tokens ++ ts, es, false⟩ =
      (items.map (Item.node b.limit),
        ⟨ts, (items.flatMap (Item.errors b.limit)).reverse ++ es, false⟩) := by
  induction h generalizing es with
  | @last i hsegment hkind =>
    rw [List.flatMap_singleton] at hcut ⊢
    obtain ⟨hnode, hsep⟩ :=
      separator_of_item (b := b) hsegment (by simp [isSeparator, hkind]) ts es
    have hlast : arguments b 0 [] ⟨i.tokens ++ ts, es, false⟩ =
        ([i.node b.limit], ⟨ts, (i.errors b.limit).reverse ++ es, (i.read b.limit).2.cut⟩) := by
      rw [arguments_last (by rw [hsep, hkind]; rfl), hnode, hsep]
    rw [hlast] at hcut ⊢
    rw [show (i.read b.limit).2.cut = false from hcut, List.flatMap_singleton]
    rfl
  | @more i is hsegment hkind _ ih =>
    rw [List.flatMap_cons, List.append_assoc] at hcut ⊢
    obtain ⟨hnode, hsep⟩ :=
      separator_of_item (b := b) hsegment (by simp [isSeparator, hkind])
        (is.flatMap Item.tokens ++ ts) es
    have hmore := @arguments_more b 0 ⟨i.tokens ++ (is.flatMap Item.tokens ++ ts), es, false⟩
      (by rw [hsep, hkind]; rfl)
    rw [hnode, hsep] at hmore
    have hnotcut : (i.read b.limit).2.cut = false := by
      rw [hmore] at hcut
      have hmarks := (marks b).2.2 0 ⟨is.flatMap Item.tokens ++ ts,
        (i.errors b.limit).reverse ++ es, (i.read b.limit).2.cut⟩
      exact hmarks.cut_eq_false hcut
    rw [hnotcut] at hmore
    rw [hmore] at hcut ⊢
    rw [ih _ hcut]
    simp

/-! ## 4. Nothing behind the query -/

end Parse

/-- Whether an error is the report that something stands behind the query. -/
def SyntaxError.isTrailingInput : SyntaxError → Bool
  | trailingInput _ _ => true
  | _ => false

namespace Parse

namespace State

/-- Whether nothing has been reported as standing behind the query. -/
def Inside (s : State) : Prop := ∀ e ∈ s.errors, e.isTrailingInput = false

variable {s : State} (h : s.Inside)

include h

theorem Inside.report {e : SyntaxError} (he : e.isTrailingInput = false) : (s.report e).Inside :=
  List.forall_mem_cons.mpr ⟨he, h⟩

theorem Inside.withRest (ts : List Token) : Inside { s with rest := ts } := h

theorem Inside.unexpected (b : Bounds) (x : Expected) : (s.unexpected b x).Inside := by
  unfold State.unexpected
  split <;> exact h.report rfl

theorem Inside.announce (head : Token) : (s.announce head).Inside := by
  unfold State.announce
  split
  · exact h.report rfl
  · exact h

theorem Inside.reportDepth (b : Bounds) (p : Position) : (s.reportDepth b p).Inside := by
  unfold State.reportDepth
  split
  · exact h
  · exact h.report rfl

theorem Inside.expectSeparator (b : Bounds) : (s.expectSeparator b).Inside := by
  unfold State.expectSeparator
  split
  · split
    · exact h
    · exact h.unexpected b _
  · exact h

theorem Inside.separator (b : Bounds) : (Parse.separator b s).2.Inside := by
  cases hsync : synchronize 0 s.rest with
  | nil =>
    rw [separator_of_synchronize_nil hsync]
    exact ((h.expectSeparator b).withRest []).unexpected b _
  | cons t ts =>
    rw [separator_of_synchronize_cons hsync]
    exact (h.expectSeparator b).withRest ts

end State

/-- No reading of calls and arguments reports what stands behind the query. -/
theorem inside (b : Bounds) :
    (∀ depth head (s : State), s.Inside → (call b depth head s).2.Inside) ∧
      (∀ depth (s : State), s.Inside → (argument b depth s).2.Inside) ∧
      ∀ depth (s : State), s.Inside → (arguments b depth [] s).2.Inside := by
  apply induction (C := fun _ _ s r => s.Inside → r.2.Inside)
    (A := fun _ s r => s.Inside → r.2.Inside) (L := fun _ s r => s.Inside → r.2.Inside)
  case headless => exact fun _ head _ _ h => (h.announce head).unexpected b _
  case skipped => exact fun _ head _ _ _ h => ((h.announce head).reportDepth b _).withRest _
  case empty => exact fun _ head _ _ _ _ h => (h.announce head).withRest _
  case applied => exact fun _ head _ _ _ _ ih h => ih ((h.announce head).withRest _)
  case ended => exact fun _ _ _ h => h.unexpected b _
  case nested => exact fun _ _ _ ts _ _ ih h => ih (h.withRest ts)
  case word => exact fun _ _ _ ts _ _ _ h => h.withRest ts
  case missing => exact fun _ _ _ _ _ _ h => h.report rfl
  case group => exact fun _ _ _ _ _ _ h => (h.unexpected b _).withRest _
  case last => exact fun _ _ ih _ h => (ih h).separator b
  case more => exact fun _ _ ih _ ihrest h => ihrest ((ih h).separator b)

/-! ## 5. Whole token sequences -/

/-- A segment does not begin with a closing parenthesis. -/
theorem Enclosed.closesParen {ts : List Token} (h : Enclosed ts) : closesParen ts = false := by
  cases ts with
  | nil => rfl
  | cons t ts =>
    obtain ⟨kind, lexeme, p⟩ := t
    cases kind with
    | closeParen => exact absurd (h.closes_le 1 (by simp)) (by simp [opens, closes])
    | _ => rfl

/-- A list of two or more arguments is not closed where it begins, even if there
is nothing in the place of its first argument. -/
theorem ArgumentList.closesParen {items : List Item} (h : ArgumentList items)
    (hlength : 2 ≤ items.length) : closesParen (items.flatMap Item.tokens) = false := by
  cases h with
  | last => simp at hlength
  | @more i is hsegment hkind _ =>
    rw [List.flatMap_cons, Item.tokens, List.append_assoc]
    cases hs : i.segment with
    | nil => simp [Parse.closesParen, hkind]
    | cons t ts =>
      rw [← hs, closesParen_append (by rw [hs]; exact List.cons_ne_nil t ts), hsegment.closesParen]

theorem State.cut_reportDepth (s : State) (b : Bounds) (p : Position) :
    (s.reportDepth b p).cut = true := by
  unfold State.reportDepth
  split
  · assumption
  · rfl

theorem query_of_items {b : Bounds} {head opening : Token} {op : Operator} {items : List Item}
    (hhead : head.kind = .operator op) (hopening : opening.kind = .openParen)
    (hitems : ArgumentList items) (hlength : 2 ≤ items.length)
    (hnone : ∀ e ∈ (query b (head :: opening :: items.flatMap Item.tokens)).errors,
      e.isNestingTooDeep = false) :
    query b (head :: opening :: items.flatMap Item.tokens) =
      { ast := some (.call op (items.map (Item.node b.limit)) head.position)
        errors := items.flatMap (Item.errors b.limit) } ∧
    ∀ e ∈ items.flatMap (Item.errors b.limit), e.isTrailingInput = false := by
  have hbegins := beginsCall_of_operator hhead (opening :: items.flatMap Item.tokens)
  have hopen : opensParen (opening :: items.flatMap Item.tokens) = true := by
    simp [opensParen, hopening]
  have hcut := cut_of_no_limit hbegins hnone
  have hdepth : 0 < b.limit := by
    refine Nat.pos_of_ne_zero ?_
    intro hzero
    rw [call_of_limit_le hopen (Nat.le_of_eq hzero)] at hcut
    exact absurd ((State.cut_reportDepth _ _ _).symm.trans hcut) (by decide)
  have hcall := call_of_operator hhead hopening hdepth (hitems.closesParen hlength) [] false
  have hread := arguments_of_items (b := b) hitems [] []
  rw [List.append_nil] at hread
  have harguments := hread (by rw [hcall] at hcut; exact hcut)
  rw [harguments] at hcall
  have hinside := (inside b).1 0 head ⟨opening :: items.flatMap Item.tokens, [], false⟩
    (List.forall_mem_nil _)
  rw [hcall, List.append_nil] at hinside
  refine ⟨?_, fun e he => hinside e (List.mem_reverse.mpr he)⟩
  rw [query_of_beginsCall hbegins, hcall]
  simp [Node.isInvalid, State.expectEnd]

end Parse

open Parse

/-- **A mistake in one argument is a mistake in that argument only.** Take a call
whose head is an operator, with two or more arguments, whatever they are, and
put something else in the place of one of them. If calls are nested too deep in
neither, then both are read as calls with all their arguments, the other
arguments are the same, and so are the errors reported for them; in front of and
behind these, what is reported for the one argument is what is reported where it
stands alone. Nothing is left over behind the call. -/
theorem Parsed.ofTokens_local {head opening sep : Token} {op : Operator}
    {before after : List Item} {segment segment' : List Token}
    (hhead : head.kind = .operator op) (hopening : opening.kind = .openParen)
    (hitems : ArgumentList (before ++ ⟨segment, sep⟩ :: after)) (hsegment : Enclosed segment')
    (hlength : 2 ≤ before.length + 1 + after.length) (maxDepth : Nat) (stop stop' : Position)
    (hnone : ∀ e ∈ (Parsed.ofTokens maxDepth
      (head :: opening :: (before ++ ⟨segment, sep⟩ :: after).flatMap Item.tokens) stop).errors,
      e.isNestingTooDeep = false)
    (hnone' : ∀ e ∈ (Parsed.ofTokens maxDepth
      (head :: opening :: (before ++ ⟨segment', sep⟩ :: after).flatMap Item.tokens) stop').errors,
      e.isNestingTooDeep = false) :
    let node := Item.node (min maxDepth depthCeiling)
    let errors := Item.errors (min maxDepth depthCeiling)
    Parsed.ofTokens maxDepth
        (head :: opening :: (before ++ ⟨segment, sep⟩ :: after).flatMap Item.tokens) stop =
      { ast := some (.call op (before.map node ++ node ⟨segment, sep⟩ :: after.map node)
          head.position)
        errors := before.flatMap errors ++ errors ⟨segment, sep⟩ ++ after.flatMap errors } ∧
    Parsed.ofTokens maxDepth
        (head :: opening :: (before ++ ⟨segment', sep⟩ :: after).flatMap Item.tokens) stop' =
      { ast := some (.call op (before.map node ++ node ⟨segment', sep⟩ :: after.map node)
          head.position)
        errors := before.flatMap errors ++ errors ⟨segment', sep⟩ ++ after.flatMap errors } ∧
    ∀ e ∈ before.flatMap errors ++ errors ⟨segment, sep⟩ ++ errors ⟨segment', sep⟩ ++
      after.flatMap errors, e.isTrailingInput = false := by
  intro node errors
  have hcount : ∀ ts, 2 ≤ (before ++ ⟨ts, sep⟩ :: after).length := by
    intro ts
    rw [List.length_append, List.length_cons]
    omega
  obtain ⟨hrun, hinside⟩ := query_of_items hhead hopening hitems (hcount segment) hnone
  obtain ⟨hrun', hinside'⟩ :=
    query_of_items hhead hopening (hitems.replace hsegment) (hcount segment') hnone'
  rw [List.flatMap_append, List.flatMap_cons] at hinside hinside'
  refine ⟨hrun.trans (by simp [node, errors]), hrun'.trans (by simp [node, errors]), ?_⟩
  intro e he
  simp only [List.mem_append] at he hinside hinside'
  rcases he with ((he | he) | he) | he
  · exact hinside e (.inl he)
  · exact hinside e (.inr (.inl he))
  · exact hinside' e (.inr (.inl he))
  · exact hinside e (.inr (.inr he))

/-- In `and(null true,a,)` a separator is missing in the first argument, and there
is nothing in the place of the third. With `(,b)` in the place of `a`, one more
mistake is reported between these two. -/
theorem Parsed.ofTokens_local_of_group :
    let head : Token := ⟨.operator (.combine .and), "and", ⟨0, 1, 1⟩⟩
    let opening : Token := ⟨.openParen, "(", ⟨3, 1, 4⟩⟩
    let first : Item := ⟨[⟨.null, "null", ⟨4, 1, 5⟩⟩, ⟨.boolean true, "true", ⟨9, 1, 10⟩⟩],
      ⟨.comma, ",", ⟨13, 1, 14⟩⟩⟩
    let sep : Token := ⟨.comma, ",", ⟨18, 1, 19⟩⟩
    let field : Item := ⟨[⟨.identifier "a", "a", ⟨14, 1, 15⟩⟩], sep⟩
    let group : Item := ⟨[⟨.openParen, "(", ⟨14, 1, 15⟩⟩, ⟨.comma, ",", ⟨15, 1, 16⟩⟩,
      ⟨.identifier "b", "b", ⟨16, 1, 17⟩⟩, ⟨.closeParen, ")", ⟨17, 1, 18⟩⟩], sep⟩
    let third : Item := ⟨[], ⟨.closeParen, ")", ⟨19, 1, 20⟩⟩⟩
    let read (second : Item) : Parsed := Parsed.ofTokens 128
      (head :: opening :: ([first] ++ second :: [third]).flatMap Item.tokens) ⟨20, 1, 21⟩
    let node := Item.node 128
    let errors := Item.errors 128
    (read field).errors = [.unexpectedToken .separator (.boolean true) ⟨9, 1, 10⟩,
      .missingArgument ⟨19, 1, 20⟩] ∧
    (read group).errors = [.unexpectedToken .separator (.boolean true) ⟨9, 1, 10⟩,
      .unexpectedToken .argument .openParen ⟨14, 1, 15⟩, .missingArgument ⟨19, 1, 20⟩] ∧
    (read field).ast =
      some (.call (.combine .and) [node first, node field, node third] ⟨0, 1, 1⟩) ∧
    (read group).ast =
      some (.call (.combine .and) [node first, node group, node third] ⟨0, 1, 1⟩) ∧
    (read field).errors = errors first ++ errors field ++ errors third ∧
    (read group).errors = errors first ++ errors group ++ errors third := by
  intro head opening first sep field group third read node errors
  have hfield : (read field).errors = [.unexpectedToken .separator (.boolean true) ⟨9, 1, 10⟩,
      .missingArgument ⟨19, 1, 20⟩] := by
    simp [read, head, opening, first, sep, field, third, Item.tokens, Parsed.ofTokens, query,
      beginsCall, call_eq, depthCeiling, State.announce, opensParen, closesParen]
    rw [arguments_eq]
    simp [argument_eq, separator, State.expectSeparator, isSeparator, synchronize,
      State.unexpected, State.report]
    rw [arguments_eq]
    simp [argument_eq, opensParen, separator, State.expectSeparator, isSeparator, synchronize]
    rw [arguments_eq]
    simp [argument_eq, separator, State.expectSeparator, isSeparator, synchronize, State.report,
      State.expectEnd]
  have hgroup : (read group).errors = [.unexpectedToken .separator (.boolean true) ⟨9, 1, 10⟩,
      .unexpectedToken .argument .openParen ⟨14, 1, 15⟩, .missingArgument ⟨19, 1, 20⟩] := by
    simp [read, head, opening, first, sep, group, third, Item.tokens, Parsed.ofTokens, query,
      beginsCall, call_eq, depthCeiling, State.announce, opensParen, closesParen]
    rw [arguments_eq]
    simp [argument_eq, separator, State.expectSeparator, isSeparator, synchronize,
      State.unexpected, State.report]
    rw [arguments_eq]
    simp [argument_eq, separator, State.expectSeparator, isSeparator, synchronize,
      State.unexpected, State.report]
    rw [arguments_eq]
    simp [argument_eq, separator, State.expectSeparator, isSeparator, synchronize, State.report,
      State.expectEnd]
  have hitems : ArgumentList ([first] ++ field :: [third]) :=
    .more (by decide) rfl (.more (by decide) rfl (.last (by decide) rfl))
  have hnone : ∀ e ∈ (read field).errors, e.isNestingTooDeep = false := by
    rw [hfield]
    decide
  have hnone' : ∀ e ∈ (read group).errors, e.isNestingTooDeep = false := by
    rw [hgroup]
    decide
  obtain ⟨hrun, hrun', _⟩ := @Parsed.ofTokens_local head opening sep (.combine .and) [first]
    [third] field.segment group.segment rfl rfl hitems (by decide) (by decide) 128 ⟨20, 1, 21⟩
    ⟨20, 1, 21⟩ hnone hnone'
  rw [List.flatMap_singleton, List.flatMap_singleton] at hrun hrun'
  exact ⟨hfield, hgroup, congrArg Parsed.ast hrun, congrArg Parsed.ast hrun',
    congrArg Parsed.errors hrun, congrArg Parsed.errors hrun'⟩

end FilterQuery
