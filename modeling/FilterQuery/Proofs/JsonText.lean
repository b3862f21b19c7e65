/-
FilterQuery.Proofs.JsonText — JSON that is written is read back.

What a JSON text says does not depend on its layout. So the texts of a
value are a relation, with any white space between the parts
(`TextOf`), and the two sides meet in it: the compact form and the form
for readers are texts of the value they write (`textOf_compact`,
`textOf_pretty`), and every text of a value is read as that value, up to
its end (`read_of_textOf`).

Numbers are left out. They are read for their form only, so a number that
was written need not come back.

The reader takes the first character of a value off before it looks at
the value, and counts the brackets that may still be opened; a text of a
value therefore has a first character that is neither white space nor a
closing bracket (`TextOf.begins`), and a number of brackets that goes
with it.
-/
import FilterQuery.Json.Basic
import FilterQuery.Json.Reading

namespace FilterQuery

namespace Json

/-! ## 1. Texts of a value -/

/-- What stands between two items: nothing in front of the first. -/
def comma (first : Bool) : List Char := if first then [] else [',']

mutual

/-- Whether a text is a value without numbers, with at most `depth` brackets in
each other. -/
inductive TextOf : Nat → Json → List Char → Prop
  | null {depth : Nat} : TextOf depth .null ['n', 'u', 'l', 'l']
  | yes {depth : Nat} : TextOf depth (.boolean true) ['t', 'r', 'u', 'e']
  | no {depth : Nat} : TextOf depth (.boolean false) ['f', 'a', 'l', 's', 'e']
  | string {depth : Nat} (s : String) : TextOf depth (.string s) (quote s).toList
  | array {depth : Nat} {items : List Json} {cs : List Char}
      (text : ItemsOf depth true items cs) : TextOf (depth + 1) (.array items) ('[' :: cs)
  | object {depth : Nat} {members : List (String × Json)} {cs : List Char}
      (text : MembersOf depth true members cs) :
      TextOf (depth + 1) (.object members) ('\x7b' :: cs)

/-- Whether a text is the rest of an array, up to its closing bracket; `first`
tells whether no item stands in front of it. -/
inductive ItemsOf : Nat → Bool → List Json → List Char → Prop
  | nil {depth : Nat} {first : Bool} {space : List Char} (blank : space.all isSpace = true) :
      ItemsOf depth first [] (space ++ [']'])
  | cons {depth : Nat} {first : Bool} {j : Json} {js : List Json}
      {before behind cs rest : List Char} (blank : before.all isSpace = true)
      (blank' : behind.all isSpace = true) (value : TextOf depth j cs)
      (items : ItemsOf depth false js rest) :
      ItemsOf depth first (j :: js) (before ++ (comma first ++ (behind ++ (cs ++ rest))))

/-- Whether a text is the rest of an object, up to its closing brace; `first`
tells whether no member stands in front of it. -/
inductive MembersOf : Nat → Bool → List (String × Json) → List Char → Prop
  | nil {depth : Nat} {first : Bool} {space : List Char} (blank : space.all isSpace = true) :
      MembersOf depth first [] (space ++ ['\x7d'])
  | cons {depth : Nat} {first : Bool} {k : String} {j : Json} {ms : List (String × Json)}
      {before behind space cs rest : List Char} (blank : before.all isSpace = true)
      (blank' : behind.all isSpace = true) (blank'' : space.all isSpace = true)
      (value : TextOf depth j cs) (members : MembersOf depth false ms rest) :
      MembersOf depth first ((k, j) :: ms) (before ++ (comma first ++
        (behind ++ ((quote k).toList ++ ':' :: (space ++ (cs ++ rest))))))

end

/-- A value begins with a character that cannot be mistaken for what stands
around it. -/
theorem TextOf.begins {depth : Nat} {j : Json} {cs : List Char} (h : TextOf depth j cs) :
    ∃ c rest, cs = c :: rest ∧ isSpace c = false ∧ c ≠ ']' ∧ c ≠ '\x7d' := by
  cases h with
  | string s => exact ⟨'"', _, String.toList_ofList, by decide, by decide, by decide⟩
  | _ => exact ⟨_, _, rfl, by decide, by decide, by decide⟩

/-! ## 2. What is written -/

/-- A value without numbers, with at most `depth` brackets in each other. -/
inductive Plain : Nat → Json → Prop
  | null {depth : Nat} : Plain depth .null
  | boolean {depth : Nat} (b : Bool) : Plain depth (.boolean b)
  | string {depth : Nat} (s : String) : Plain depth (.string s)
  | array {depth : Nat} {items : List Json} (plain : ∀ j ∈ items, Plain depth j) :
      Plain (depth + 1) (.array items)
  | object {depth : Nat} {members : List (String × Json)} (plain : ∀ m ∈ members, Plain depth m.2) :
      Plain (depth + 1) (.object members)

theorem textOf_boolean {depth : Nat} (b : Bool) :
    TextOf depth (.boolean b) (atomText (.boolean b)).toList := by
  cases b with
  | true => exact .yes
  | false => exact .no

/-- Items are written as the rest of an array, if each of them is written as a
text of its own. -/
theorem itemsOf_compactItems {depth : Nat} {js : List Json}
    (h : ∀ j ∈ js, ∀ out, ∃ cs, (compactOnto out j).toList = out.toList ++ cs ∧ TextOf depth j cs)
    (out : String) (first : Bool) :
    ∃ cs, ((compactItems out first js).push ']').toList = out.toList ++ cs ∧
      ItemsOf depth first js cs := by
  induction js generalizing out first with
  | nil => exact ⟨[']'], by simp [compactItems], @ItemsOf.nil _ _ [] rfl⟩
  | cons j js ih =>
    obtain ⟨cs, hcs, hj⟩ := h j List.mem_cons_self (if first then out else out.push ',')
    obtain ⟨rest, hrest, hjs⟩ := ih (fun i hi => h i (List.mem_cons_of_mem j hi))
      (compactOnto (if first then out else out.push ',') j) false
    refine ⟨_, ?_, @ItemsOf.cons _ first _ _ [] [] _ _ rfl rfl hj hjs⟩
    rw [compactItems, hrest, hcs]
    cases first <;> simp [comma]

theorem membersOf_compactMembers {depth : Nat} {ms : List (String × Json)}
    (h : ∀ m ∈ ms, ∀ out, ∃ cs, (compactOnto out m.2).toList = out.toList ++ cs ∧
      TextOf depth m.2 cs) (out : String) (first : Bool) :
    ∃ cs, ((compactMembers out first ms).push '\x7d').toList = out.toList ++ cs ∧
      MembersOf depth first ms cs := by
  induction ms generalizing out first with
  | nil => exact ⟨['\x7d'], by simp [compactMembers], @MembersOf.nil _ _ [] rfl⟩
  | cons m ms ih =>
    obtain ⟨k, j⟩ := m
    obtain ⟨cs, hcs, hj⟩ := h (k, j) List.mem_cons_self
      (((if first then out else out.push ',') ++ quote k).push ':')
    obtain ⟨rest, hrest, hms⟩ := ih (fun i hi => h i (List.mem_cons_of_mem (k, j) hi))
      (compactOnto (((if first then out else out.push ',') ++ quote k).push ':') j) false
    refine ⟨_, ?_, @MembersOf.cons _ first k _ _ [] [] [] _ _ rfl rfl rfl hj hms⟩
    rw [compactMembers, hrest, hcs]
    cases first <;> simp [comma]

/-- The compact form is a text of the value, whatever is written before it. -/
theorem textOf_compactOnto {depth : Nat} {j : Json} (h : j.Plain depth) (out : String) :
    ∃ cs, (compactOnto out j).toList = out.toList ++ cs ∧ TextOf depth j cs := by
  induction h generalizing out with
  | null => exact ⟨_, by rw [compactOnto, String.toList_append]; rfl, .null⟩
  | boolean b => exact ⟨_, by rw [compactOnto, String.toList_append], textOf_boolean b⟩
  | string s => exact ⟨_, by rw [compactOnto, String.toList_append]; rfl, .string s⟩
  | array _ ih =>
    obtain ⟨cs, hcs, htext⟩ := itemsOf_compactItems ih (out.push '[') true
    exact ⟨'[' :: cs, by rw [compactOnto, hcs]; simp, .array htext⟩
  | object _ ih =>
    obtain ⟨cs, hcs, htext⟩ := membersOf_compactMembers ih (out.push '\x7b') true
    exact ⟨'\x7b' :: cs, by rw [compactOnto, hcs]; simp, .object htext⟩

/-- The compact form is a text of the value. -/
theorem textOf_compact {depth : Nat} {j : Json} (h : j.Plain depth) :
    TextOf depth j j.compact.toList := by
  obtain ⟨cs, hcs, htext⟩ := textOf_compactOnto h ""
  rw [String.toList_empty, List.nil_append] at hcs
  rwa [compact, hcs]

/-- A new line at a level. -/
def indent (level : Nat) : List Char := '\n' :: List.replicate (2 * level) ' '

theorem toList_newLine (out : String) (level : Nat) :
    (newLine out level).toList = out.toList ++ indent level := by
  simp [newLine, indent]

theorem blank_indent (level : Nat) : (indent level).all isSpace = true := by
  rw [indent, List.all_cons, List.all_replicate]
  simp [isSpace]

theorem itemsOf_prettyItems {depth level : Nat} {js : List Json}
    (h : ∀ j ∈ js, ∀ out, ∃ cs, (prettyOnto level out j).toList = out.toList ++ cs ∧
      TextOf depth j cs) (outer : Nat) (out : String) (first : Bool) :
    ∃ cs, ((newLine (prettyItems level out first js) outer).push ']').toList = out.toList ++ cs ∧
      ItemsOf depth first js cs := by
  induction js generalizing out first with
  | nil => exact ⟨_, by simp [prettyItems, toList_newLine], .nil (blank_indent outer)⟩
  | cons j js ih =>
    obtain ⟨cs, hcs, hj⟩ := h j List.mem_cons_self
      (newLine (if first then out else out.push ',') level)
    obtain ⟨rest, hrest, hjs⟩ := ih (fun i hi => h i (List.mem_cons_of_mem j hi))
      (prettyOnto level (newLine (if first then out else out.push ',') level) j) false
    refine ⟨_, ?_, @ItemsOf.cons _ first _ _ [] _ _ _ rfl (blank_indent level) hj hjs⟩
    rw [prettyItems, hrest, hcs, toList_newLine]
    cases first <;> simp [comma]

theorem membersOf_prettyMembers {depth level : Nat} {ms : List (String × Json)}
    (h : ∀ m ∈ ms, ∀ out, ∃ cs, (prettyOnto level out m.2).toList = out.toList ++ cs ∧
      TextOf depth m.2 cs) (outer : Nat) (out : String) (first : Bool) :
    ∃ cs, ((newLine (prettyMembers level out first ms) outer).push '\x7d').toList =
      out.toList ++ cs ∧ MembersOf depth first ms cs := by
  induction ms generalizing out first with
  | nil => exact ⟨_, by simp [prettyMembers, toList_newLine], .nil (blank_indent outer)⟩
  | cons m ms ih =>
    obtain ⟨k, j⟩ := m
    obtain ⟨cs, hcs, hj⟩ := h (k, j) List.mem_cons_self
      (newLine (if first then out else out.push ',') level ++ quote k ++ ": ")
    obtain ⟨rest, hrest, hms⟩ := ih (fun i hi => h i (List.mem_cons_of_mem (k, j) hi))
      (prettyOnto level (newLine (if first then out else out.push ',') level ++ quote k ++ ": ") j)
      false
    refine ⟨_, ?_,
      @MembersOf.cons _ first k _ _ [] _ [' '] _ _ rfl (blank_indent level) rfl hj hms⟩
    rw [prettyMembers, hrest, hcs]
    cases first <;> simp [comma, toList_newLine]

/-- The form for readers is a text of the value, at any level and whatever is
written before it. -/
theorem textOf_prettyOnto {depth : Nat} {j : Json} (h : j.Plain depth) (level : Nat)
    (out : String) :
    ∃ cs, (prettyOnto level out j).toList = out.toList ++ cs ∧ TextOf depth j cs := by
  induction h generalizing level out with
  | null => exact ⟨_, by rw [prettyOnto, String.toList_append]; rfl, .null⟩
  | boolean b => exact ⟨_, by rw [prettyOnto, String.toList_append], textOf_boolean b⟩
  | string s => exact ⟨_, by rw [prettyOnto, String.toList_append]; rfl, .string s⟩
  | @array _ items _ ih =>
    cases items with
    | nil =>
      exact ⟨['[', ']'], by rw [prettyOnto, String.toList_append]; rfl,
        .array (@ItemsOf.nil _ _ [] rfl)⟩
    | cons i is =>
      obtain ⟨cs, hcs, htext⟩ := itemsOf_prettyItems (fun j hj => ih j hj (level + 1)) level
        (out.push '[') true
      exact ⟨'[' :: cs, by rw [prettyOnto, hcs] <;> simp, .array htext⟩
  | @object _ members _ ih =>
    cases members with
    | nil =>
      exact ⟨['\x7b', '\x7d'], by rw [prettyOnto]; simp, .object (@MembersOf.nil _ _ [] rfl)⟩
    | cons m ms =>
      obtain ⟨cs, hcs, htext⟩ := membersOf_prettyMembers (fun m hm => ih m hm (level + 1)) level
        (out.push '\x7b') true
      exact ⟨'\x7b' :: cs, by rw [prettyOnto, hcs] <;> simp, .object htext⟩

/-- The form for readers is a text of the value. -/
theorem textOf_pretty {depth : Nat} {j : Json} (h : j.Plain depth) :
    TextOf depth j j.pretty.toList := by
  obtain ⟨cs, hcs, htext⟩ := textOf_prettyOnto h 0 ""
  rw [String.toList_empty, List.nil_append] at hcs
  rwa [pretty, hcs]

/-! ## 3. Strings are read back -/

theorem readHex_controlDigits {n : Nat} (h : n < 0x20) (rest : List Char) :
    readHex ('0' :: '0' :: (controlDigits n ++ rest)) = .ok (n, rest) := by
  have hdigits : ∀ n < 0x20, hexValue? (Nat.digitChar (n / 16)) = some (n / 16) ∧
      hexValue? (Nat.digitChar (n % 16)) = some (n % 16) := by decide
  obtain ⟨hhigh, hlow⟩ := hdigits n h
  have hzero : hexValue? '0' = some 0 := by decide
  simp only [controlDigits, List.cons_append, List.nil_append, readHex, hzero, hhigh, hlow]
  congr
  omega

theorem readEscape_control {c : Char} (h : c.toNat < 0x20) (rest : List Char) :
    readEscape ('u' :: '0' :: '0' :: (controlDigits c.toNat ++ rest)) = .ok (c, rest) := by
  have hlow : c.toNat < 0xD800 ∨ 0xDFFF < c.toNat := .inl (by omega)
  simp only [readEscape, readHex_controlDigits h, hlow, if_true, Char.ofNat_toNat]

/-- A backslash and what stands behind it are read as one character. -/
theorem readStringBelow_backslash {n : Nat} {done cs behind : List Char} {c : Char}
    (hescape : readEscape cs = .ok (c, behind)) (hn : ('\\' :: cs).length ≤ n)
    (hn' : behind.length ≤ n) :
    readStringBelow n done ('\\' :: cs) hn = readStringBelow n (c :: done) behind hn' := by
  rw [readStringBelow, if_neg (by decide), if_pos rfl]
  split
  · next hfault => cases hescape.symm.trans hfault
  · next hread =>
    cases hescape.symm.trans hread
    rfl

theorem readStringBelow_plain {n : Nat} {done cs : List Char} {c : Char} (hquote : c ≠ '"')
    (hbackslash : c ≠ '\\') (hcontrol : ¬c.toNat < 0x20) (hn : (c :: cs).length ≤ n)
    (hn' : cs.length ≤ n) :
    readStringBelow n done (c :: cs) hn = readStringBelow n (c :: done) cs hn' := by
  rw [readStringBelow, if_neg hquote, if_neg hbackslash, if_neg hcontrol]

/-- What stands for a character in a string is read as that character. -/
theorem readStringBelow_escape {n : Nat} {done : List Char} (c : Char) {cs : List Char}
    (hn : (escape c ++ cs).length ≤ n) (hn' : cs.length ≤ n) :
    readStringBelow n done (escape c ++ cs) hn = readStringBelow n (c :: done) cs hn' := by
  revert hn
  unfold escape
  split
  case h_8 hquote hbackslash _ _ _ _ _ =>
    split
    · next hcontrol =>
      intro hn
      exact readStringBelow_backslash (readEscape_control hcontrol cs) hn hn'
    · next hcontrol =>
      intro hn
      exact readStringBelow_plain hquote hbackslash hcontrol hn hn'
  all_goals exact fun hn => readStringBelow_backslash rfl hn hn'

/-- A string is read back from behind its opening quote. -/
theorem readStringBelow_quote {n : Nat} (s done rest : List Char)
    (hn : (s.flatMap escape ++ '"' :: rest).length ≤ n) :
    ∃ left : Left n, left.1 = rest ∧
      readStringBelow n done (s.flatMap escape ++ '"' :: rest) hn =
        .ok (String.ofList (done.reverse ++ s), left) := by
  induction s generalizing done with
  | nil =>
    refine ⟨⟨rest, hn⟩, rfl, ?_⟩
    simp only [List.flatMap_nil, List.nil_append, List.append_nil]
    rw [readStringBelow, if_pos rfl]
  | cons c s ih =>
    have hle : (s.flatMap escape ++ '"' :: rest).length ≤ n := by
      rw [List.flatMap_cons, List.append_assoc, List.length_append] at hn
      omega
    obtain ⟨left, hleft, hread⟩ := ih (c :: done) hle
    refine ⟨left, hleft, ?_⟩
    simp only [List.flatMap_cons, List.append_assoc]
    rw [readStringBelow_escape c _ hle, hread, List.reverse_cons, List.append_assoc]
    rfl

/-! ## 4. Values are read back -/

mutual

/-- What a value is read as. Numbers are read for their form only. -/
def reading : Json → Reading
  | null => .null
  | boolean b => .boolean b
  | integer n => .integer n
  | real _ => .fraction
  | string s => .string s
  | array items => .array (itemReadings items)
  | object members => .object (memberReadings members) none

/-- What items are read as. -/
def itemReadings : List Json → List Reading
  | [] => []
  | j :: js => j.reading :: itemReadings js

/-- What members are read as. -/
def memberReadings : List (String × Json) → List (String × Reading)
  | [] => []
  | (k, j) :: ms => (k, j.reading) :: memberReadings ms

end

theorem memberReadings_eq_map (ms : List (String × Json)) :
    memberReadings ms = ms.map fun m => (m.1, m.2.reading) := by
  induction ms with
  | nil => rfl
  | cons m ms ih => rw [memberReadings, ih, List.map_cons]

/-- White space in front of something else is passed. -/
theorem skipSpace_append {space cs : List Char} {c : Char} (blank : space.all isSpace = true)
    (hc : isSpace c = false) : skipSpace (space ++ c :: cs) = c :: cs := by
  rw [skipSpace, List.dropWhile_append_of_pos (List.all_eq_true.mp blank), List.dropWhile_cons, hc]
  rfl

theorem nextPlace_closed {n : Nat} {close : Char} {first : Bool} {space rest : List Char}
    (blank : space.all isSpace = true) (hclose : isSpace close = false)
    (hn : (space ++ close :: rest).length ≤ n) :
    ∃ left : Left n, left.1 = rest ∧
      nextPlace n close first (space ++ close :: rest) hn = .closed left := by
  have hskip := @skipSpace_append _ rest _ blank hclose
  unfold nextPlace
  split
  · next hnil => cases hskip.symm.trans hnil
  · next c cs hcons =>
    cases hskip.symm.trans hcons
    exact ⟨_, rfl, if_pos rfl⟩

theorem nextPlace_item {n : Nat} {close c : Char} {first : Bool} {before behind rest : List Char}
    (blank : before.all isSpace = true) (blank' : behind.all isSpace = true)
    (hc : isSpace c = false) (hne : c ≠ close) (hcomma : ',' ≠ close)
    (hn : (before ++ (comma first ++ (behind ++ c :: rest))).length ≤ n) :
    ∃ left : Left n, left.1 = rest ∧
      nextPlace n close first (before ++ (comma first ++ (behind ++ c :: rest))) hn =
        .item c left := by
  cases first with
  | true =>
    have hskip : skipSpace (before ++ (comma true ++ (behind ++ c :: rest))) = c :: rest := by
      rw [comma, if_pos rfl, List.nil_append, ← List.append_assoc]
      exact skipSpace_append (by rw [List.all_append, blank, blank']; rfl) hc
    unfold nextPlace
    split
    · next hnil => cases hskip.symm.trans hnil
    · next d ds hcons =>
      cases hskip.symm.trans hcons
      exact ⟨_, rfl, by rw [if_neg hne, if_pos rfl]⟩
  | false =>
    have hskip : skipSpace (before ++ (comma false ++ (behind ++ c :: rest))) =
        ',' :: (behind ++ c :: rest) := skipSpace_append blank (by decide)
    have hskip' := @skipSpace_append _ rest _ blank' hc
    unfold nextPlace
    split
    · next hnil => cases hskip.symm.trans hnil
    · next d ds hcons =>
      cases hskip.symm.trans hcons
      dsimp only
      rw [if_neg hcomma, if_neg (by decide), if_pos rfl]
      split
      · next hnil => cases hskip'.symm.trans hnil
      · next e es hcons =>
        cases hskip'.symm.trans hcons
        exact ⟨_, rfl, by rw [if_neg hne]⟩

theorem valueStart_append {space rest : List Char} {c : Char} (blank : space.all isSpace = true)
    (hc : isSpace c = false) : valueStart (':' :: (space ++ c :: rest)) = .ok (c, rest) := by
  have hskip := @skipSpace_append _ rest _ blank hc
  have hcolon : skipSpace (':' :: (space ++ c :: rest)) = ':' :: (space ++ c :: rest) :=
    @skipSpace_append [] _ _ rfl (by decide)
  simp only [valueStart, hcolon, hskip, if_true]

theorem readWord_append (letters rest : List Char) :
    readWord letters (letters ++ rest) = .ok rest := by
  induction letters with
  | nil => cases rest <;> rfl
  | cons c letters ih => rw [List.cons_append, readWord, if_pos rfl, ih]

theorem wordBelow_append {n : Nat} {value : Reading} (letters : List Char) {rest : List Char}
    (hn : (letters ++ rest).length < n) :
    ∃ left : Left n, left.1 = rest ∧
      wordBelow n value letters (letters ++ rest) hn = (value, some left) := by
  have hword := readWord_append letters rest
  unfold wordBelow
  split
  · next hfault => cases hword.symm.trans hfault
  · next hread =>
    cases hword.symm.trans hread
    exact ⟨_, rfl, rfl⟩

mutual

/-- A text of a value is read as the value, and reading stops behind it. -/
theorem valueBelow_of_textOf {depth : Nat} {j : Json} {cs : List Char} :
    TextOf depth j cs → ∀ (n : Nat) (c : Char) (rest tail text : List Char)
      (hn : text.length < n), cs = c :: rest → text = rest ++ tail →
      ∃ left : Left n, left.1 = tail ∧ valueBelow n depth c text hn = (j.reading, some left)
  | .null, n, _, _, tail, _, hn, hcs, htext => by
      obtain ⟨rfl, rfl⟩ := List.cons.inj hcs
      subst htext
      -- the equations of `valueBelow` first ask whether brackets are left, a word does not
      rw [valueBelow.eq_def, if_neg (by decide), if_neg (by decide), if_neg (by decide), if_pos rfl]
      exact wordBelow_append ['u', 'l', 'l'] hn
  | .yes, n, _, _, tail, _, hn, hcs, htext => by
      obtain ⟨rfl, rfl⟩ := List.cons.inj hcs
      subst htext
      rw [valueBelow.eq_def, if_neg (by decide), if_neg (by decide), if_neg (by decide),
        if_neg (by decide), if_pos rfl]
      exact wordBelow_append ['r', 'u', 'e'] hn
  | .no, n, _, _, tail, _, hn, hcs, htext => by
      obtain ⟨rfl, rfl⟩ := List.cons.inj hcs
      subst htext
      rw [valueBelow.eq_def, if_neg (by decide), if_neg (by decide), if_neg (by decide),
        if_neg (by decide), if_neg (by decide), if_pos rfl]
      exact wordBelow_append ['a', 'l', 's', 'e'] hn
  | .string s, n, _, _, tail, _, hn, hcs, htext => by
      rw [quote, String.toList_ofList] at hcs
      obtain ⟨rfl, rfl⟩ := List.cons.inj hcs
      have hsplit : _ = s.toList.flatMap escape ++ '"' :: tail :=
        htext.trans (List.append_assoc _ ['"'] tail)
      clear htext
      subst hsplit
      obtain ⟨left, hleft, hread⟩ := readStringBelow_quote s.toList [] tail (Nat.le_of_lt hn)
      refine ⟨left, hleft, ?_⟩
      rw [valueBelow.eq_def, if_pos rfl, hread]
      simp only [List.reverse_nil, List.nil_append, String.ofList_toList, reading]
  | .array items, n, _, _, tail, text, hn, hcs, htext => by
      obtain ⟨rfl, rfl⟩ := List.cons.inj hcs
      obtain ⟨left, hleft, hread⟩ := itemsBelow_of_itemsOf items n [] tail text (Nat.le_of_lt hn)
        rfl htext
      refine ⟨left, hleft, ?_⟩
      rw [valueBelow, if_neg (by decide), if_pos rfl, hread, reading, List.reverse_nil,
        List.nil_append]
  | .object members, n, _, _, tail, text, hn, hcs, htext => by
      obtain ⟨rfl, rfl⟩ := List.cons.inj hcs
      obtain ⟨left, hleft, hread⟩ := membersBelow_of_membersOf members n [] tail text
        (Nat.le_of_lt hn) rfl htext
      refine ⟨left, hleft, ?_⟩
      rw [valueBelow, if_neg (by decide), if_neg (by decide), if_pos rfl, hread, reading,
        List.reverse_nil, List.nil_append]

/-- The rest of an array is read onto the items in front of it. -/
theorem itemsBelow_of_itemsOf {depth : Nat} {first : Bool} {js : List Json} {cs : List Char} :
    ItemsOf depth first js cs → ∀ (n : Nat) (done : List Reading) (tail text : List Char)
      (hn : text.length ≤ n), done.isEmpty = first → text = cs ++ tail →
      ∃ left : Left n, left.1 = tail ∧
        itemsBelow n depth done text hn = (.array (done.reverse ++ itemReadings js), some left)
  | .nil blank, n, done, tail, text, hn, _, htext => by
      rw [List.append_assoc, List.singleton_append] at htext
      subst htext
      obtain ⟨left, hleft, hplace⟩ := @nextPlace_closed _ ']' done.isEmpty _ tail blank (by decide)
        (Nat.le_refl _)
      refine ⟨⟨left.1, Nat.lt_of_lt_of_le left.2 hn⟩, hleft, ?_⟩
      rw [itemsBelow, hplace, itemReadings, List.append_nil]
  | @ItemsOf.cons _ _ j js before behind cs rest blank blank' value items, n, done, tail, text,
      hn, hfirst, htext => by
      obtain ⟨c, vs, hcs, hc, hbracket, _⟩ := value.begins
      have hsplit : text =
          before ++ (comma done.isEmpty ++ (behind ++ c :: (vs ++ (rest ++ tail)))) := by
        rw [htext, hcs, hfirst]
        simp only [List.append_assoc, List.cons_append]
      clear htext
      subst hsplit
      obtain ⟨left, hleft, hplace⟩ := @nextPlace_item _ ']' c done.isEmpty _ _
        (vs ++ (rest ++ tail)) blank blank' hc hbracket (by decide) (Nat.le_refl _)
      obtain ⟨behindValue, hbehind, hvalue⟩ := valueBelow_of_textOf value _ c vs (rest ++ tail)
        left.1 left.2 hcs hleft
      obtain ⟨behindAll, hend, hitems⟩ := itemsBelow_of_itemsOf items n (j.reading :: done) tail
        behindValue.1 (Nat.le_of_lt (Nat.lt_of_lt_of_le behindValue.2 hn)) rfl hbehind
      refine ⟨behindAll, hend, ?_⟩
      rw [itemsBelow, hplace]
      dsimp only
      rw [hvalue]
      dsimp only
      rw [hitems, List.reverse_cons, List.append_assoc, List.singleton_append, itemReadings]

/-- The rest of an object is read onto the members in front of it. -/
theorem membersBelow_of_membersOf {depth : Nat} {first : Bool} {ms : List (String × Json)}
    {cs : List Char} :
    MembersOf depth first ms cs → ∀ (n : Nat) (done : List (String × Reading))
      (tail text : List Char) (hn : text.length ≤ n), done.isEmpty = first → text = cs ++ tail →
      ∃ left : Left n, left.1 = tail ∧
        membersBelow n depth done text hn =
          (.object (done.reverse ++ memberReadings ms) none, some left)
  | .nil blank, n, done, tail, text, hn, _, htext => by
      rw [List.append_assoc, List.singleton_append] at htext
      subst htext
      obtain ⟨left, hleft, hplace⟩ := @nextPlace_closed _ '\x7d' done.isEmpty _ tail blank
        (by decide) (Nat.le_refl _)
      refine ⟨⟨left.1, Nat.lt_of_lt_of_le left.2 hn⟩, hleft, ?_⟩
      rw [membersBelow, hplace, memberReadings, List.append_nil]
  | @MembersOf.cons _ _ k j ms before behind space cs rest blank blank' blank'' value members, n,
      done, tail, text, hn, hfirst, htext => by
      obtain ⟨c, vs, hcs, hc, _, _⟩ := value.begins
      have hsplit : text = before ++ (comma done.isEmpty ++ (behind ++ '"' ::
          (k.toList.flatMap escape ++ '"' :: ':' :: (space ++ c :: (vs ++ (rest ++ tail)))))) := by
        rw [htext, hcs, hfirst, quote, String.toList_ofList]
        simp only [List.append_assoc, List.cons_append, List.nil_append]
      clear htext
      subst hsplit
      obtain ⟨⟨_, hlt⟩, hleft, hplace⟩ := @nextPlace_item _ '\x7d' '"' done.isEmpty _ _
        (k.toList.flatMap escape ++ '"' :: ':' :: (space ++ c :: (vs ++ (rest ++ tail)))) blank
        blank' (by decide) (by decide) (by decide) (Nat.le_refl _)
      subst hleft
      obtain ⟨⟨_, hlt'⟩, hleft', hkey⟩ := readStringBelow_quote k.toList []
        (':' :: (space ++ c :: (vs ++ (rest ++ tail)))) (Nat.le_of_lt hlt)
      subst hleft'
      have hstart := @valueStart_append _ (vs ++ (rest ++ tail)) _ blank'' hc
      have hr := Nat.lt_trans (valueStart_length hstart) hlt'
      obtain ⟨behindValue, hbehind, hvalue⟩ := valueBelow_of_textOf value _ c vs (rest ++ tail) _
        hr hcs rfl
      obtain ⟨behindAll, hend, hmembers⟩ := membersBelow_of_membersOf members n ((k, j.reading) :: done)
        tail behindValue.1 (Nat.le_of_lt (Nat.lt_of_lt_of_le behindValue.2 hn)) rfl hbehind
      refine ⟨behindAll, hend, ?_⟩
      rw [List.reverse_nil, List.nil_append, String.ofList_toList] at hkey
      rw [membersBelow, hplace]
      dsimp only
      rw [if_neg (by decide), hkey]
      dsimp only
      split
      · next hfault => cases hstart.symm.trans hfault
      · next hread =>
        cases hstart.symm.trans hread
        rw [hvalue]
        dsimp only
        rw [hmembers, List.reverse_cons, List.append_assoc, List.singleton_append, memberReadings]

end

/-- **JSON is read back**: from each of its texts a value is read as it is, and
nothing is left of the text. -/
theorem read_of_textOf {depth : Nat} {j : Json} {text : String} (h : TextOf depth j text.toList) :
    read depth text = ⟨j.reading, false⟩ := by
  obtain ⟨c, rest, hcs, hc, _, _⟩ := h.begins
  have hskip : skipSpace text.toList = c :: rest := by
    rw [hcs]
    exact @skipSpace_append [] rest c rfl hc
  obtain ⟨⟨_, hlt⟩, hleft, hread⟩ := valueBelow_of_textOf h (rest.length + 1) c rest [] rest
    (Nat.lt_succ_self _) hcs (List.append_nil rest).symm
  subst hleft
  simp only [read, hskip, hread]
  rfl

mutual

/-- There is no mistake in what a value is read as. -/
theorem fault?_reading : ∀ j : Json, j.reading.fault? = none
  | .null | .boolean _ | .integer _ | .real _ | .string _ => rfl
  | .array items => by
      rw [reading, Reading.fault?]
      exact faultOfItems_itemReadings items
  | .object members => by
      rw [reading, Reading.fault?]
      exact faultOfMembers_memberReadings members

theorem faultOfItems_itemReadings : ∀ js : List Json, faultOfItems (itemReadings js) = none
  | [] => rfl
  | j :: js => by
      rw [itemReadings, faultOfItems, fault?_reading j]
      exact faultOfItems_itemReadings js

theorem faultOfMembers_memberReadings : ∀ ms : List (String × Json),
    faultOfMembers none (memberReadings ms) = none
  | [] => rfl
  | (_, j) :: ms => by
      rw [memberReadings, faultOfMembers, fault?_reading j]
      exact faultOfMembers_memberReadings ms

end

end Json

end FilterQuery
