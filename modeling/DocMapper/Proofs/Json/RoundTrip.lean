import DocMapper.Json.Writer
import DocMapper.Proofs.Json.Numbers

/-!
# JSON texts read back

What a style of one or of many lines writes for a tree is read as that tree.  A reader that
stands before the text of a part takes exactly this text, whatever follows, if a number
cannot go on there.
-/

namespace DocMapper.Json

theorem hexValue?_digitChar : ∀ n < 16, hexValue? n.digitChar = some n := by decide

theorem hexNumber?_hexDigits (width n : Nat) :
    hexNumber? (Text.hexDigits width n) = some (n % 16 ^ width) := by
  induction width generalizing n with
  | zero => rw [Nat.pow_zero, Nat.mod_one]; rfl
  | succ width ih =>
      have last : hexValue? (Text.hexDigit n) = some (n % 16) :=
        hexValue?_digitChar _ (Nat.mod_lt _ (by decide))
      have split := Nat.mod_mul (a := 16) (b := 16 ^ width) (x := n)
      unfold hexNumber? at ih ⊢
      rw [Text.hexDigits, List.foldlM_append, ih]
      simp [last, Nat.pow_succ', split, Nat.add_comm]

theorem stringRest_simple {e c : Char} (escapes : simpleEscape? e = some c) (rest : List Char) :
    stringRest ('\\' :: e :: rest) = (stringRest rest).map fun (cs, after) => (c :: cs, after) := by
  have other : e ≠ 'u' := by
    rintro rfl
    cases escapes
  rw [stringRest.eq_5 e rest (fun _ _ _ _ _ _ _ _ _ h => absurd h other)
    (fun _ _ _ _ _ h => absurd h other), escapes]
  cases stringRest rest <;> rfl

theorem stringRest_plain {c : Char} (quote : c ≠ '"') (backslash : c ≠ '\\')
    (printable : ¬ c.toNat < 32) (rest : List Char) :
    stringRest (c :: rest) = (stringRest rest).map fun (cs, after) => (c :: cs, after) := by
  rw [stringRest.eq_6 c rest quote (fun _ _ _ _ _ _ _ _ _ h => absurd h backslash)
    (fun _ _ _ _ _ h => absurd h backslash) (fun _ _ h => absurd h backslash),
    if_neg (not_or.2 ⟨printable, backslash⟩)]
  cases stringRest rest <;> rfl

theorem unicodeEscape_digits {n : Nat} (small : n < 0x10000) :
    ∃ a b c d, unicodeEscape n = ['\\', 'u', a, b, c, d] ∧ hexNumber? [a, b, c, d] = some n := by
  refine ⟨_, _, _, _, rfl, ?_⟩
  have read := hexNumber?_hexDigits 4 n
  have whole : n % 16 ^ 4 = n := Nat.mod_eq_of_lt small
  rw [whole] at read
  exact read

theorem stringRest_unit {n : Nat} (small : n < 0x10000) (lone : isHighSurrogate n = false)
    (rest : List Char) :
    stringRest (unicodeEscape n ++ rest) =
      (stringRest rest).map fun (cs, after) => (Char.ofNat n :: cs, after) := by
  obtain ⟨a, b, c, d, digits, read⟩ := unicodeEscape_digits small
  rw [digits]
  -- Whether another escape follows only decides which clause of the reader applies.
  by_cases another : ∃ a' b' c' d' more, rest = '\\' :: 'u' :: a' :: b' :: c' :: d' :: more
  · obtain ⟨a', b', c', d', more, rfl⟩ := another
    change stringRest ('\\' :: 'u' :: a :: b :: c :: d :: '\\' :: 'u' :: _) = _
    rw [stringRest.eq_3, read, Option.bind_eq_bind, Option.bind_some, lone]
    cases stringRest ('\\' :: 'u' :: a' :: b' :: c' :: d' :: more) <;> rfl
  · change stringRest ('\\' :: 'u' :: a :: b :: c :: d :: rest) = _
    rw [stringRest.eq_4 a b c d rest
      (fun a' b' c' d' more h => another ⟨a', b', c', d', more, h⟩), read]
    cases stringRest rest <;> rfl

theorem stringRest_pair {high low : Nat} (first : isHighSurrogate high = true)
    (second : isLowSurrogate low = true) (rest : List Char) :
    stringRest (unicodeEscape high ++ (unicodeEscape low ++ rest)) =
      (stringRest rest).map fun (cs, after) =>
        (Char.ofNat (0x10000 + (high - 0xd800) * 0x400 + (low - 0xdc00)) :: cs, after) := by
  have bounds : high < 0x10000 ∧ low < 0x10000 := by
    simp only [isHighSurrogate, isLowSurrogate, Bool.and_eq_true, decide_eq_true_eq] at first second
    omega
  obtain ⟨a, b, c, d, digits, read⟩ := unicodeEscape_digits bounds.1
  obtain ⟨a', b', c', d', digits', read'⟩ := unicodeEscape_digits bounds.2
  rw [digits, digits']
  change stringRest ('\\' :: 'u' :: a :: b :: c :: d :: '\\' :: 'u' ::
    a' :: b' :: c' :: d' :: rest) = _
  rw [stringRest.eq_3, read, read', Option.bind_eq_bind, Option.bind_some, first]
  simp only [second, if_true]
  cases stringRest rest <;> rfl

theorem stringRest_wideEscape (c : Char) (rest : List Char) :
    stringRest (wideEscape c.toNat ++ rest) =
      (stringRest rest).map fun (cs, after) => (c :: cs, after) := by
  have valid : c.toNat < 0xd800 ∨ 0xdfff < c.toNat ∧ c.toNat < 0x110000 := c.valid
  have number := Char.ofNat_toNat c
  unfold wideEscape
  split
  next small =>
    have lone : isHighSurrogate c.toNat = false := by
      simp only [isHighSurrogate, Bool.and_eq_false_iff, decide_eq_false_iff_not]
      omega
    rw [stringRest_unit small lone, number]
  next large =>
    have first : isHighSurrogate (0xd800 + (c.toNat - 0x10000) / 0x400) = true := by
      simp only [isHighSurrogate, Bool.and_eq_true, decide_eq_true_eq]
      omega
    have second : isLowSurrogate (0xdc00 + (c.toNat - 0x10000) % 0x400) = true := by
      simp only [isLowSurrogate, Bool.and_eq_true, decide_eq_true_eq]
      omega
    have sum : 0x10000 + (0xd800 + (c.toNat - 0x10000) / 0x400 - 0xd800) * 0x400 +
        (0xdc00 + (c.toNat - 0x10000) % 0x400 - 0xdc00) = c.toNat := by omega
    dsimp only
    rw [List.append_assoc, stringRest_pair first second, sum, number]

theorem stringRest_escapeChar (asciiOnly : Bool) (c : Char) (rest : List Char) :
    stringRest (escapeChar asciiOnly c ++ rest) =
      (stringRest rest).map fun (cs, after) => (c :: cs, after) := by
  have number := Char.ofNat_toNat c
  unfold escapeChar
  split_ifs with quote backslash newline return' tab backspace feed control wide
  · subst quote
    exact stringRest_simple rfl rest
  · subst backslash
    exact stringRest_simple rfl rest
  · subst newline
    exact stringRest_simple rfl rest
  · subst return'
    exact stringRest_simple rfl rest
  · subst tab
    exact stringRest_simple rfl rest
  · rw [← number, backspace]
    exact stringRest_simple rfl rest
  · rw [← number, feed]
    exact stringRest_simple rfl rest
  · have lone : isHighSurrogate c.toNat = false := by
      simp only [isHighSurrogate, Bool.and_eq_false_iff, decide_eq_false_iff_not]
      omega
    rw [stringRest_unit (by omega) lone, number]
  · exact stringRest_wideEscape c rest
  · exact stringRest_plain quote backslash control rest

theorem stringRest_chars (asciiOnly : Bool) (cs rest : List Char) :
    stringRest (cs.flatMap (escapeChar asciiOnly) ++ '"' :: rest) = some (cs, rest) := by
  induction cs with
  | nil => exact stringRest.eq_2 rest
  | cons c cs ih =>
      rw [List.flatMap_cons, List.append_assoc, stringRest_escapeChar, ih]
      rfl

theorem skipBlanks_append {blanks : List Char} (blank : ∀ c ∈ blanks, isBlank c = true)
    (cs : List Char) : skipBlanks (blanks ++ cs) = skipBlanks cs :=
  List.dropWhile_append_of_pos blank

theorem skipBlanks_cons {c : Char} (visible : isBlank c = false) (cs : List Char) :
    skipBlanks (c :: cs) = c :: cs :=
  List.dropWhile_cons_of_neg (by simp [visible])

theorem value?_blanks {blanks : List Char} (blank : ∀ c ∈ blanks, isBlank c = true)
    (steps : Nat) (cs : List Char) : value? steps (blanks ++ cs) = value? steps cs := by
  cases steps with
  | zero => rfl
  | succ steps => rw [value?.eq_2, value?.eq_2, skipBlanks_append blank]

theorem items?_blanks {blanks : List Char} (blank : ∀ c ∈ blanks, isBlank c = true)
    (steps : Nat) (cs : List Char) : items? steps (blanks ++ cs) = items? steps cs := by
  cases steps with
  | zero => rfl
  | succ steps => rw [items?.eq_2, items?.eq_2, value?_blanks blank]

theorem members?_blanks {blanks : List Char} (blank : ∀ c ∈ blanks, isBlank c = true)
    (steps : Nat) (cs : List Char) : members? steps (blanks ++ cs) = members? steps cs := by
  cases steps with
  | zero => rfl
  | succ steps => rw [members?.eq_2, members?.eq_2, skipBlanks_append blank]

def isStructural (c : Char) : Bool :=
  isBlank c || c = '[' || c = ']' || c = '\x7b' || c = '\x7d'

theorem scalar?_structural {c : Char} (h : isStructural c = true) (cs : List Char) :
    scalar? (c :: cs) = none := by
  simp only [isStructural, isBlank, Bool.or_eq_true, decide_eq_true_eq, or_assoc] at h
  obtain rfl | rfl | rfl | rfl | rfl | rfl | rfl | rfl := h <;> rfl

theorem scalar?_head {cs : List Char} {found : Json × List Char} (h : scalar? cs = some found) :
    ∃ c ∈ cs.head?, isStructural c = false := by
  cases cs with
  | nil => cases h
  | cons c cs =>
      refine ⟨c, rfl, ?_⟩
      rw [← Bool.not_eq_true]
      intro structural
      rw [scalar?_structural structural] at h
      cases h

theorem value?_scalar {cs : List Char} {found : Json × List Char} (h : scalar? cs = some found)
    (steps : Nat) : value? (steps + 1) cs = some found := by
  obtain ⟨c, head, plain⟩ := scalar?_head h
  obtain ⟨rest, rfl⟩ := List.head?_eq_some_iff.1 head
  simp only [isStructural, Bool.or_eq_false_iff, decide_eq_false_iff_not] at plain
  obtain ⟨⟨⟨⟨visible, array⟩, -⟩, object⟩, -⟩ := plain
  rw [value?.eq_2, skipBlanks_cons visible]
  simp [array, object, h]

theorem scalar?_word {word : String} {j : Json} (rest : List Char)
    (h : scalar? (word.toList ++ rest) = (afterWord? word (word.toList ++ rest)).map (j, ·)) :
    scalar? (word.toList ++ rest) = some (j, rest) := by
  rw [h, afterWord?_append]
  rfl

theorem scalar?_string (asciiOnly : Bool) (s : String) (rest : List Char) :
    scalar? (stringChars asciiOnly s ++ rest) = some (.str s, rest) := by
  have text : stringChars asciiOnly s ++ rest =
      '"' :: (s.toList.flatMap (escapeChar asciiOnly) ++ '"' :: rest) := by
    simp [stringChars]
  rw [text]
  change (stringRest _).map _ = _
  rw [stringRest_chars, Option.map_some]
  dsimp only
  rw [String.ofList_toList]

/-! ## Trees -/

mutual

/-- The numbers of the tree are doubles that stand for themselves only. -/
def WellFormed : Json → Prop
  | .float x => x.WellFormed
  | .array items => AllWellFormed items
  | .object members => MembersWellFormed members
  | _ => True
termination_by structural x => x

def AllWellFormed : List Json → Prop
  | [] => True
  | j :: js => WellFormed j ∧ AllWellFormed js
termination_by structural x => x

def MembersWellFormed : List (String × Json) → Prop
  | [] => True
  | (_, j) :: rest => WellFormed j ∧ MembersWellFormed rest
termination_by structural x => x

end

structure Style.Standard (style : Style) : Prop where
  items : ∃ blanks, style.itemSeparator.toList = ',' :: blanks ∧ ∀ c ∈ blanks, isBlank c = true
  members : ∃ blanks, style.keySeparator.toList = ':' :: blanks ∧ ∀ c ∈ blanks, isBlank c = true

theorem blank_lineBreak (style : Style) (depth : Nat) :
    ∀ c ∈ lineBreak style depth, isBlank c = true := by
  unfold lineBreak
  split
  · intro c mem
    obtain rfl | mem := List.mem_cons.1 mem
    · rfl
    · rw [List.eq_of_mem_replicate mem]
      rfl
  · nofun

theorem ends_of_not {c : Char} (h : c.isDigit = false ∧ c ≠ '.' ∧ c ≠ 'e' ∧ c ≠ 'E')
    (cs : List Char) : Ends (c :: cs) := by
  rintro _ ⟨⟩
  exact h

theorem ends_blanks {blanks : List Char} (blank : ∀ c ∈ blanks, isBlank c = true)
    {rest : List Char} (ends : Ends rest) : Ends (blanks ++ rest) := by
  cases blanks with
  | nil => exact ends
  | cons b blanks =>
      have visible := blank b (.head _)
      simp only [isBlank, Bool.or_eq_true, decide_eq_true_eq] at visible
      refine ends_of_not ?_ _
      obtain ((rfl | rfl) | rfl) | rfl := visible <;> decide

theorem blank_takeWhile (cs : List Char) : ∀ c ∈ cs.takeWhile isBlank, isBlank c = true :=
  fun _ mem => List.mem_takeWhile_imp mem

theorem items?_skipBlanks (steps : Nat) (cs : List Char) :
    items? steps (skipBlanks cs) = items? steps cs := by
  have blank := items?_blanks (blank_takeWhile cs) steps (skipBlanks cs)
  rw [skipBlanks, List.takeWhile_append_dropWhile] at blank
  exact blank.symm

theorem value?_close (steps : Nat) (cs : List Char) : value? steps (']' :: cs) = none := by
  cases steps with
  | zero => rfl
  | succ steps =>
      rw [value?.eq_2, skipBlanks_cons rfl]
      exact scalar?_structural rfl cs

theorem value?_open (steps : Nat) (cs : List Char) :
    value? (steps + 1) ('[' :: cs) = match skipBlanks cs with
      | ']' :: after => some (.array [], after)
      | rest => (items? steps rest).map fun (js, after) => (.array js, after) := by
  rw [value?.eq_2, skipBlanks_cons rfl]
  rfl

theorem value?_emptyArray (steps : Nat) (rest : List Char) :
    value? (steps + 1) ('[' :: ']' :: rest) = some (.array [], rest) := by
  rw [value?_open, skipBlanks_cons rfl]
  rfl

theorem value?_array {steps : Nat} {cs : List Char} {js : List Json} {rest : List Char}
    (h : items? steps cs = some (js, rest)) :
    value? (steps + 1) ('[' :: cs) = some (.array js, rest) := by
  rw [← items?_skipBlanks] at h
  rw [value?_open]
  split
  next after closed =>
    -- No item starts with the bracket.
    rw [closed] at h
    cases steps with
    | zero => cases h
    | succ steps =>
        rw [items?.eq_2, value?_close] at h
        cases h
  next => rw [h, Option.map_some]

theorem items?_last {steps : Nat} {cs blanks rest : List Char} {j : Json}
    (h : value? steps cs = some (j, blanks ++ ']' :: rest))
    (blank : ∀ c ∈ blanks, isBlank c = true) : items? (steps + 1) cs = some ([j], rest) := by
  rw [items?.eq_2, h, Option.bind_eq_bind, Option.bind_some]
  dsimp only
  rw [skipBlanks_append blank, skipBlanks_cons rfl]
  rfl

theorem items?_next {steps : Nat} {cs more rest : List Char} {j : Json} {js : List Json}
    (h : value? steps cs = some (j, ',' :: more)) (next : items? steps more = some (js, rest)) :
    items? (steps + 1) cs = some (j :: js, rest) := by
  rw [items?.eq_2, h, Option.bind_eq_bind, Option.bind_some]
  dsimp only
  rw [skipBlanks_cons rfl]
  change (items? steps more).bind _ = _
  rw [next]
  rfl

theorem value?_openObject (steps : Nat) (cs : List Char) :
    value? (steps + 1) ('\x7b' :: cs) = match skipBlanks cs with
      | '\x7d' :: after => some (.object [], after)
      | rest => (members? steps rest).map fun (ms, after) => (.object ms, after) := by
  rw [value?.eq_2, skipBlanks_cons rfl]
  rfl

theorem value?_emptyObject (steps : Nat) (rest : List Char) :
    value? (steps + 1) ('\x7b' :: '\x7d' :: rest) = some (.object [], rest) := by
  rw [value?_openObject, skipBlanks_cons rfl]
  rfl

theorem members?_skipBlanks (steps : Nat) (cs : List Char) :
    members? steps (skipBlanks cs) = members? steps cs := by
  have blank := members?_blanks (blank_takeWhile cs) steps (skipBlanks cs)
  rw [skipBlanks, List.takeWhile_append_dropWhile] at blank
  exact blank.symm

theorem members?_close (steps : Nat) (cs : List Char) : members? steps ('\x7d' :: cs) = none := by
  cases steps with
  | zero => rfl
  | succ steps =>
      rw [members?.eq_2, skipBlanks_cons rfl]
      rfl

theorem value?_object {steps : Nat} {cs : List Char} {ms : List (String × Json)}
    {rest : List Char} (h : members? steps cs = some (ms, rest)) :
    value? (steps + 1) ('\x7b' :: cs) = some (.object ms, rest) := by
  rw [← members?_skipBlanks] at h
  rw [value?_openObject]
  split
  next after closed =>
    rw [closed, members?_close] at h
    cases h
  next => rw [h, Option.map_some]

theorem members?_named {asciiOnly : Bool} {name : String} {steps : Nat} {blanks cs rest : List Char}
    {j : Json} (blank : ∀ c ∈ blanks, isBlank c = true)
    (h : value? steps cs = some (j, rest)) :
    members? (steps + 1) (stringChars asciiOnly name ++ ':' :: (blanks ++ cs)) =
      match skipBlanks rest with
      | '\x7d' :: after => some ([(name, j)], after)
      | ',' :: more => (members? steps more).bind fun (ms, after) => some ((name, j) :: ms, after)
      | _ => none := by
  have text : stringChars asciiOnly name ++ ':' :: (blanks ++ cs) =
      '"' :: (name.toList.flatMap (escapeChar asciiOnly) ++ '"' :: ':' :: (blanks ++ cs)) := by
    simp [stringChars]
  rw [text, members?.eq_2, skipBlanks_cons rfl]
  change (stringRest _).bind _ = _
  rw [stringRest_chars, Option.bind_some]
  dsimp only
  rw [skipBlanks_cons rfl]
  change (value? steps (blanks ++ cs)).bind _ = _
  rw [value?_blanks blank, h, Option.bind_some, String.ofList_toList]
  rfl

def separator (style : Style) (depth : Nat) : List Char :=
  style.itemSeparator.toList ++ lineBreak style depth

theorem Style.Standard.separator {style : Style} (standard : style.Standard) (depth : Nat) :
    ∃ blanks, Json.separator style depth = ',' :: blanks ∧ ∀ c ∈ blanks, isBlank c = true := by
  obtain ⟨blanks, comma, blank⟩ := standard.items
  refine ⟨blanks ++ lineBreak style depth, ?_, fun c mem => ?_⟩
  · rw [Json.separator, comma]
    rfl
  · exact (List.mem_append.1 mem).elim (blank c) (blank_lineBreak style depth c)

variable {style : Style} {depth : Nat} {left right : Char} {parts : List (List Char)}

theorem bracketed_append (nonempty : parts ≠ []) (rest : List Char) :
    bracketed style depth left right parts ++ rest =
      left :: (lineBreak style (depth + 1) ++ ((separator style (depth + 1)).intercalate parts ++
        (lineBreak style depth ++ right :: rest))) := by
  rw [bracketed, if_neg (by rwa [List.isEmpty_iff])]
  simp [separator]

theorem length_bracketed (nonempty : parts ≠ []) :
    ((separator style (depth + 1)).intercalate parts).length + 1 <
      (bracketed style depth left right parts).length := by
  have whole : (bracketed style depth left right parts ++ []).length = _ :=
    congrArg List.length (bracketed_append nonempty [])
  simp only [List.append_nil, List.length_cons, List.length_append] at whole
  omega

theorem intercalate_cons (separator part next : List Char) (rest : List (List Char)) :
    separator.intercalate (part :: next :: rest) =
      part ++ (separator ++ separator.intercalate (next :: rest)) := by
  simp [List.intercalate]

theorem intercalate_single (separator part : List Char) : separator.intercalate [part] = part := by
  simp [List.intercalate]

/-- The reader takes the text of the tree, in at most one step more than it has characters. -/
def ReadsBack (style : Style) (j : Json) : Prop :=
  ∀ (steps depth : Nat) (rest : List Char), Ends rest → (chars style depth j).length < steps →
    value? steps (chars style depth j ++ rest) = some (j, rest)

theorem readsBack_scalar {j : Json} (text : List Char)
    (written : ∀ depth, chars style depth j = text)
    (reads : ∀ rest, Ends rest → scalar? (text ++ rest) = some (j, rest)) : ReadsBack style j := by
  intro steps depth rest ends enough
  obtain ⟨s, rfl⟩ := Nat.exists_eq_succ_of_ne_zero (Nat.ne_of_gt (Nat.zero_lt_of_lt enough))
  rw [written]
  exact value?_scalar (reads rest ends) s

variable (standard : style.Standard)

include standard

theorem items?_chars {js : List Json} (each : ∀ j ∈ js, ReadsBack style j) (nonempty : js ≠ [])
    {steps : Nat} {blanks : List Char} (blank : ∀ c ∈ blanks, isBlank c = true) (rest : List Char)
    (enough : ((separator style depth).intercalate (itemChars style depth js)).length + 1 < steps) :
    items? steps ((separator style depth).intercalate (itemChars style depth js) ++
      (blanks ++ ']' :: rest)) = some (js, rest) := by
  obtain ⟨gap, comma, between⟩ := standard.separator depth
  induction js generalizing steps with
  | nil => exact absurd rfl nonempty
  | cons j js ih =>
      obtain ⟨s, rfl⟩ := Nat.exists_eq_succ_of_ne_zero (Nat.ne_of_gt (Nat.zero_lt_of_lt enough))
      have first := each j (.head _)
      cases js with
      | nil =>
          rw [itemChars, itemChars, intercalate_single] at enough ⊢
          have ends := ends_blanks blank (ends_of_not (by decide) rest : Ends (']' :: rest))
          exact items?_last (first s depth _ ends (by omega)) blank
      | cons next js =>
          have following := @ih (fun j mem => each j (.tail _ mem)) (List.cons_ne_nil next js) s
          rw [itemChars, itemChars, intercalate_cons, ← itemChars] at enough ⊢
          generalize (separator style depth).intercalate (itemChars style depth (next :: js)) = more
            at enough following ⊢
          rw [comma] at enough ⊢
          simp only [List.length_append, List.length_cons] at enough
          simp only [List.append_assoc, List.cons_append]
          refine items?_next (first s depth _ (ends_of_not (by decide) _) (by omega)) ?_
          rw [items?_blanks between]
          exact following (by omega)

theorem members?_chars {ms : List (String × Json)} (each : ∀ m ∈ ms, ReadsBack style m.2)
    (nonempty : ms ≠ []) {steps : Nat} {blanks : List Char}
    (blank : ∀ c ∈ blanks, isBlank c = true) (rest : List Char)
    (enough :
      ((separator style depth).intercalate (memberChars style depth ms)).length + 1 < steps) :
    members? steps ((separator style depth).intercalate (memberChars style depth ms) ++
      (blanks ++ '\x7d' :: rest)) = some (ms, rest) := by
  obtain ⟨gap, comma, between⟩ := standard.separator depth
  obtain ⟨space, colon, behind⟩ := standard.members
  induction ms generalizing steps with
  | nil => exact absurd rfl nonempty
  | cons m ms ih =>
      obtain ⟨name, j⟩ := m
      obtain ⟨s, rfl⟩ := Nat.exists_eq_succ_of_ne_zero (Nat.ne_of_gt (Nat.zero_lt_of_lt enough))
      have first : ReadsBack style j := each (name, j) (.head _)
      cases ms with
      | nil =>
          rw [memberChars, memberChars, intercalate_single, colon] at enough ⊢
          simp only [List.length_append, List.length_cons] at enough
          simp only [List.append_assoc, List.cons_append]
          have ends := ends_blanks blank (ends_of_not (by decide) rest : Ends ('\x7d' :: rest))
          rw [members?_named behind (first s depth _ ends (by omega)), skipBlanks_append blank,
            skipBlanks_cons rfl]
          rfl
      | cons next ms =>
          obtain ⟨other, k⟩ := next
          have following := @ih (fun m mem => each m (.tail _ mem)) (List.cons_ne_nil _ ms) s
          rw [memberChars, memberChars, intercalate_cons, ← memberChars] at enough ⊢
          generalize (separator style depth).intercalate
            (memberChars style depth ((other, k) :: ms)) = more at enough following ⊢
          rw [comma, colon] at enough ⊢
          simp only [List.length_append, List.length_cons] at enough
          simp only [List.append_assoc, List.cons_append]
          rw [members?_named behind (first s depth _ (ends_of_not (by decide) _) (by omega)),
            skipBlanks_cons rfl]
          change (members? s (gap ++ (more ++ (blanks ++ '\x7d' :: rest)))).bind _ = _
          rw [members?_blanks between, following (by omega)]
          rfl

theorem readsBack_array {js : List Json} (each : ∀ j ∈ js, ReadsBack style j) :
    ReadsBack style (.array js) := by
  intro steps depth rest ends enough
  obtain ⟨s, rfl⟩ := Nat.exists_eq_succ_of_ne_zero (Nat.ne_of_gt (Nat.zero_lt_of_lt enough))
  rw [chars] at enough ⊢
  cases js with
  | nil => exact value?_emptyArray s rest
  | cons j js =>
      have parts : itemChars style (depth + 1) (j :: js) ≠ [] := by
        rw [itemChars]
        exact List.cons_ne_nil _ _
      have shorter : _ < (bracketed style depth '[' ']' _).length := length_bracketed parts
      rw [bracketed_append parts]
      refine value?_array ?_
      rw [items?_blanks (blank_lineBreak style (depth + 1))]
      exact items?_chars standard each (List.cons_ne_nil j js) (blank_lineBreak style depth) rest
        (by omega)

theorem readsBack_object {ms : List (String × Json)} (each : ∀ m ∈ ms, ReadsBack style m.2) :
    ReadsBack style (.object ms) := by
  intro steps depth rest ends enough
  obtain ⟨s, rfl⟩ := Nat.exists_eq_succ_of_ne_zero (Nat.ne_of_gt (Nat.zero_lt_of_lt enough))
  rw [chars] at enough ⊢
  cases ms with
  | nil => exact value?_emptyObject s rest
  | cons m ms =>
      have parts : memberChars style (depth + 1) (m :: ms) ≠ [] := by
        rw [memberChars]
        exact List.cons_ne_nil _ _
      have shorter : _ < (bracketed style depth '\x7b' '\x7d' _).length := length_bracketed parts
      rw [bracketed_append parts]
      refine value?_object ?_
      rw [members?_blanks (blank_lineBreak style (depth + 1))]
      exact members?_chars standard each (List.cons_ne_nil m ms) (blank_lineBreak style depth) rest
        (by omega)

omit standard

theorem wellFormed_array {js : List Json} :
    (Json.array js).WellFormed ↔ ∀ j ∈ js, j.WellFormed := by
  rw [WellFormed]
  induction js with
  | nil => simp [AllWellFormed]
  | cons j js ih => simp [AllWellFormed, ih]

theorem wellFormed_object {ms : List (String × Json)} :
    (Json.object ms).WellFormed ↔ ∀ m ∈ ms, m.2.WellFormed := by
  rw [WellFormed]
  induction ms with
  | nil => simp [MembersWellFormed]
  | cons m ms ih => simp [MembersWellFormed, ih]

include standard

theorem readsBack : ∀ (j : Json), j.WellFormed → ReadsBack style j
  | .null, _ => readsBack_scalar "null".toList (fun _ => rfl) fun rest _ =>
      scalar?_word rest (by simp [scalar?])
  | .bool b, _ => readsBack_scalar (if b then "true" else "false").toList (fun _ => rfl)
      fun rest _ => scalar?_word rest (by cases b <;> simp [scalar?])
  | .int i, _ => readsBack_scalar _ (fun _ => rfl) fun _ ends => scalar?_int i ends
  | .float _, formed => readsBack_scalar _ (fun _ => rfl) fun _ ends => scalar?_float formed ends
  | .str s, _ => readsBack_scalar _ (fun _ => rfl) fun rest _ =>
      scalar?_string style.asciiOnly s rest
  | .array _, formed => readsBack_array standard fun j mem =>
      readsBack j (wellFormed_array.1 formed j mem)
  | .object _, formed => readsBack_object standard fun m mem =>
      readsBack m.2 (wellFormed_object.1 formed m mem)
termination_by j => sizeOf j
decreasing_by
  · have := List.sizeOf_lt_of_mem mem
    simp only [array.sizeOf_spec]
    omega
  · have := List.sizeOf_lt_of_mem mem
    obtain ⟨name, j⟩ := m
    simp only [object.sizeOf_spec, Prod.mk.sizeOf_spec] at this ⊢
    omega

/-- A tree that is written in a standard style is read back. -/
theorem read?_write {j : Json} (formed : j.WellFormed) : read? (write style j) = some j := by
  have reads := readsBack standard j formed ((chars style 0 j).length + 1) 0 [] nofun
    (Nat.lt_succ_self _)
  rw [List.append_nil] at reads
  rw [read?, write, String.toList_ofList]
  dsimp only
  rw [reads]
  rfl

end DocMapper.Json
