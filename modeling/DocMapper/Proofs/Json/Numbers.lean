import DocMapper.Json.Reader
import DocMapper.Proofs.Number.Digits
import DocMapper.Proofs.Number.Shortest

/-!
# Numbers of JSON texts

A number is split into the digits before its point, those behind it, and its exponent.  The
text of a double has such parts, and what is read from them is the double.
-/

namespace DocMapper.Json

/-- The number ends here: what follows cannot belong to it. -/
def Ends (rest : List Char) : Prop :=
  ∀ c ∈ rest.head?, c.isDigit = false ∧ c ≠ '.' ∧ c ≠ 'e' ∧ c ≠ 'E'

structure Numeral where
  whole : List Char
  fraction : List Char
  /-- Whether it is negative, and its digits. -/
  exponent : Option (Bool × List Char)

namespace Numeral

def pointed (fraction : List Char) : List Char :=
  if fraction.isEmpty then [] else '.' :: fraction

def powered : Option (Bool × List Char) → List Char
  | none => []
  | some (negative, ds) => 'e' :: (if negative then '-' else '+') :: ds

def chars (n : Numeral) : List Char := n.whole ++ (pointed n.fraction ++ powered n.exponent)

structure Formed (n : Numeral) : Prop where
  whole : n.whole ≠ [] ∧ ∀ c ∈ n.whole, c.isDigit = true
  /-- A leading zero stands alone. -/
  leading : n.whole.head? = some '0' → n.whole = ['0']
  fraction : ∀ c ∈ n.fraction, c.isDigit = true
  exponent : ∀ p ∈ n.exponent, p.2 ≠ [] ∧ ∀ c ∈ p.2, c.isDigit = true

def power (n : Numeral) : Option Int := n.exponent.map fun (negative, ds) =>
  Digits.signed negative (Digits.value ds)

def digits (n : Numeral) : Nat := Digits.value (n.whole ++ n.fraction)

/-- The power of ten at which the last digit stands. -/
def place (n : Numeral) : Int := n.power.getD 0 - n.fraction.length

theorem fractionPart_pointed {fraction rest : List Char}
    (digits : ∀ c ∈ fraction, c.isDigit = true)
    (stops : ∀ c ∈ rest.head?, c.isDigit = false ∧ c ≠ '.') :
    fractionPart (pointed fraction ++ rest) = (fraction, rest) := by
  cases fraction with
  | nil =>
      cases rest with
      | nil => rfl
      | cons c rest =>
          have other := (stops c rfl).2
          simp [pointed, fractionPart, other]
  | cons d ds =>
      have span := Digits.span_append digits fun c h => (stops c h).1
      simp only [pointed, List.isEmpty_cons, Bool.false_eq_true, if_false, List.cons_append,
        fractionPart] at span ⊢
      rw [span]

theorem exponentPart_powered {exponent : Option (Bool × List Char)} {rest : List Char}
    (formed : ∀ p ∈ exponent, p.2 ≠ [] ∧ ∀ c ∈ p.2, c.isDigit = true) (ends : Ends rest) :
    exponentPart (powered exponent ++ rest) =
      (exponent.map fun (negative, ds) => Digits.signed negative (Digits.value ds), rest) := by
  cases exponent with
  | none =>
      cases rest with
      | nil => rfl
      | cons c rest =>
          obtain ⟨-, -, lower, upper⟩ := ends c rfl
          simp [powered, exponentPart, lower, upper]
  | some p =>
      obtain ⟨negative, ds⟩ := p
      obtain ⟨nonempty, digits⟩ := formed _ rfl
      have span := Digits.span_append digits fun c h => (ends c h).1
      cases negative <;> simp [powered, exponentPart, Digits.sign, span]

theorem stops_powered (exponent : Option (Bool × List Char)) {rest : List Char}
    (ends : Ends rest) :
    ∀ c ∈ (powered exponent ++ rest).head?, c.isDigit = false ∧ c ≠ '.' := by
  cases exponent with
  | none => exact fun c h => ⟨(ends c h).1, (ends c h).2.1⟩
  | some p =>
      rintro c ⟨⟩
      decide

theorem stops_pointed (fraction : List Char) {rest : List Char}
    (stops : ∀ c ∈ rest.head?, c.isDigit = false) :
    ∀ c ∈ (pointed fraction ++ rest).head?, c.isDigit = false := by
  cases fraction with
  | nil => exact stops
  | cons d ds =>
      rintro c ⟨⟩
      decide

theorem wholePart_append {n : Numeral} (formed : n.Formed) {rest : List Char}
    (stops : ∀ c ∈ rest.head?, c.isDigit = false) :
    wholePart (n.whole ++ rest) = (n.whole, rest) := by
  have span := Digits.span_append formed.whole.2 stops
  unfold wholePart
  split
  next after eq =>
    obtain ⟨d, ds, whole⟩ := List.exists_cons_of_ne_nil formed.whole.1
    rw [whole, List.cons_append] at eq
    obtain ⟨rfl, after⟩ := List.cons.inj eq
    have single := formed.leading (by rw [whole]; rfl)
    rw [whole] at single
    rw [whole, ← after, (List.cons.inj single).2, List.nil_append]
  next => exact span

theorem number?_chars (negative : Bool) {n : Numeral} (formed : n.Formed) {rest : List Char}
    (ends : Ends rest) :
    number? negative (n.chars ++ rest) =
      some (if n.fraction.isEmpty && n.exponent.isNone
        then .int (Digits.signed negative (Digits.value n.whole))
        else .float (.ofDecimal negative n.digits n.place), rest) := by
  have stops := stops_powered n.exponent ends
  have whole := wholePart_append formed (stops_pointed n.fraction fun c h => (stops c h).1)
  have fraction := fractionPart_pointed formed.fraction stops
  have exponent := exponentPart_powered formed.exponent ends
  have nonempty : n.whole.isEmpty = false := List.isEmpty_eq_false_iff.2 formed.whole.1
  unfold number?
  rw [chars, List.append_assoc, List.append_assoc, whole]
  simp only [fraction, exponent, nonempty, Bool.false_eq_true, if_false, Option.isNone_map]
  split <;> rfl

/-! ## Layouts -/

structure Leads (ds : List Char) : Prop where
  positive : 0 < Digits.value ds
  digits : ∀ c ∈ ds, c.isDigit = true
  first : ds.head? ≠ some '0'

/-- The numeral denotes a double: `0.ds` times a power of ten. -/
structure Denotes (n : Numeral) (ds : List Char) (power : Int) : Prop where
  formed : n.Formed
  double : (n.fraction.isEmpty && n.exponent.isNone) = false
  value (negative : Bool) : Double.ofDecimal negative n.digits n.place =
    Double.ofDecimal negative (Digits.value ds) (power - ds.length)

def positional (ds : List Char) (before : Nat) : Numeral where
  whole := (ds ++ List.replicate (before - ds.length) '0').take before
  fraction := if (ds.drop before).isEmpty then ['0'] else ds.drop before
  exponent := none

def fractional (ds : List Char) (zeros : Nat) : Numeral where
  whole := ['0']
  fraction := List.replicate zeros '0' ++ ds
  exponent := none

def scientific (width : Nat) (ds : List Char) (power : Int) : Numeral where
  whole := ds.take 1
  fraction := ds.drop 1
  exponent := some (decide (power < 0), (Double.padLeft width (toString power.natAbs)).toList)

theorem isDigit_zeros {k : Nat} : ∀ c ∈ List.replicate k '0', c.isDigit = true := by
  intro c mem
  rw [List.eq_of_mem_replicate mem]
  rfl

theorem toList_padLeft (width n : Nat) :
    ∃ k, (Double.padLeft width (toString n)).toList =
      List.replicate k '0' ++ Nat.toDigits 10 n := by
  refine ⟨width - (toString n).length, ?_⟩
  rw [Double.padLeft, String.toList_append, String.toList_ofList, Digits.toList_toString]

variable {ds : List Char} (leads : Leads ds)

include leads

theorem Leads.ne_nil : ds ≠ [] := by
  rintro rfl
  exact absurd leads.positive (Nat.lt_irrefl 0)

theorem positional_whole_denotes {before : Nat} (short : ds.length ≤ before) :
    (positional ds before).Denotes ds before := by
  have whole : (positional ds before).whole = ds ++ List.replicate (before - ds.length) '0' := by
    refine List.take_of_length_le ?_
    rw [List.length_append, List.length_replicate]
    omega
  have fraction : (positional ds before).fraction = ['0'] := by
    rw [positional, List.drop_eq_nil_of_le short]
    rfl
  have first := leads.first
  refine ⟨⟨⟨?_, ?_⟩, ?_, ?_, nofun⟩, ?_, fun negative => ?_⟩
  · rw [whole]
    exact List.append_ne_nil_of_left_ne_nil leads.ne_nil _
  · rw [whole]
    exact fun c mem => (List.mem_append.1 mem).elim (leads.digits c) (isDigit_zeros c)
  · rw [whole, List.head?_append_of_ne_nil _ leads.ne_nil]
    exact fun zero => absurd zero first
  · rw [fraction]
    exact isDigit_zeros (k := 1)
  · rw [fraction]
    rfl
  · have last : (positional ds before).place + (before - ds.length + 1 : Nat) =
        before - ds.length := by
      rw [place, fraction, List.length_singleton]
      simp only [positional, power, Option.map_none, Option.getD_none]
      omega
    rw [digits, whole, fraction, List.append_assoc, ← List.replicate_succ',
      Digits.value_zeros_after, Double.ofDecimal_shift negative leads.positive, last]

theorem positional_split_denotes {before : Nat} (pos : 0 < before) (long : before < ds.length) :
    (positional ds before).Denotes ds before := by
  have whole : (positional ds before).whole = ds.take before :=
    List.take_append_of_le_length long.le
  have behind : ds.drop before ≠ [] := by
    rw [Ne, List.drop_eq_nil_iff]
    omega
  have fraction : (positional ds before).fraction = ds.drop before := by
    rw [positional, if_neg (by rwa [List.isEmpty_iff])]
  have first := leads.first
  refine ⟨⟨⟨?_, ?_⟩, ?_, ?_, nofun⟩, ?_, fun negative => ?_⟩
  · rw [whole, Ne, List.take_eq_nil_iff]
    exact not_or.2 ⟨pos.ne', leads.ne_nil⟩
  · rw [whole]
    exact fun c mem => leads.digits c (List.mem_of_mem_take mem)
  · rw [whole, List.head?_take, if_neg pos.ne']
    exact fun zero => absurd zero first
  · rw [fraction]
    exact fun c mem => leads.digits c (List.mem_of_mem_drop mem)
  · rw [fraction, List.isEmpty_eq_false_iff.2 behind]
    rfl
  · have last : (positional ds before).place = before - ds.length := by
      rw [place, fraction, List.length_drop]
      simp only [positional, power, Option.map_none, Option.getD_none]
      omega
    rw [digits, whole, fraction, List.take_append_drop, last]

theorem positional_denotes {before : Nat} (pos : 0 < before) :
    (positional ds before).Denotes ds before := by
  rcases Nat.lt_or_ge before ds.length with long | short
  · exact positional_split_denotes leads pos long
  · exact positional_whole_denotes leads short

theorem fractional_denotes (zeros : Nat) : (fractional ds zeros).Denotes ds (-zeros) := by
  refine ⟨⟨⟨nofun, isDigit_zeros (k := 1)⟩, fun _ => rfl, ?_, nofun⟩, ?_, fun negative => ?_⟩
  · exact fun c mem => (List.mem_append.1 mem).elim (isDigit_zeros c) (leads.digits c)
  · have behind : (List.replicate zeros '0' ++ ds).isEmpty = false :=
      List.isEmpty_eq_false_iff.2 (List.append_ne_nil_of_right_ne_nil _ leads.ne_nil)
    rw [fractional, behind]
    rfl
  · have value := Digits.value_zeros_before (zeros + 1) ds
    rw [List.replicate_succ, List.cons_append] at value
    have last : (fractional ds zeros).place = -zeros - ds.length := by
      rw [place]
      simp only [fractional, power, Option.map_none, Option.getD_none, List.length_append,
        List.length_replicate]
      omega
    rw [last, digits, fractional, List.singleton_append, value]

theorem scientific_denotes (width : Nat) (power : Int) :
    (scientific width ds power).Denotes ds (power + 1) := by
  obtain ⟨k, exponent⟩ := toList_padLeft width power.natAbs
  obtain ⟨d, rest, rfl⟩ := List.exists_cons_of_ne_nil leads.ne_nil
  refine ⟨⟨⟨nofun, ?_⟩, ?_, ?_, ?_⟩, Bool.and_false _, fun negative => ?_⟩
  · exact fun c mem => leads.digits c (List.mem_of_mem_take mem)
  · exact fun zero => absurd zero leads.first
  · exact fun c mem => leads.digits c (List.mem_of_mem_drop mem)
  · rintro p ⟨⟩
    dsimp only
    rw [exponent]
    refine ⟨List.append_ne_nil_of_right_ne_nil _ Nat.toDigits_ne_nil, fun c mem => ?_⟩
    exact (List.mem_append.1 mem).elim (isDigit_zeros c) Digits.isDigit_of_mem_toDigits
  · have powered : (scientific width (d :: rest) power).power = some power := by
      simp only [Numeral.power, scientific, Option.map_some, exponent,
        Digits.value_zeros_before, Digits.value_toDigits, Digits.signed_natAbs]
    have last : (scientific width (d :: rest) power).place = power + 1 - (d :: rest).length := by
      rw [place, powered, Option.getD_some]
      simp only [scientific, List.drop_one, List.tail_cons, List.length_cons]
      omega
    rw [last, digits, scientific, List.take_append_drop]

omit leads

theorem dropTrailingZeros_append (ds : List Char) :
    ∃ k, ds = Double.dropTrailingZeros ds ++ List.replicate k '0' := by
  refine ⟨(ds.reverse.takeWhile (· == '0')).length, ?_⟩
  have zeros : ds.reverse.takeWhile (· == '0') =
      List.replicate (ds.reverse.takeWhile (· == '0')).length '0' :=
    List.eq_replicate_iff.2 ⟨rfl, fun c mem => eq_of_beq (List.mem_takeWhile_imp mem : _)⟩
  have split := congrArg List.reverse (List.takeWhile_append_dropWhile (p := (· == '0'))
    (l := ds.reverse))
  rw [List.reverse_append, List.reverse_reverse, zeros, List.reverse_replicate] at split
  exact split.symm

theorem leads_written {digits : Nat} (pos : 0 < digits) :
    ∃ k, Nat.toDigits 10 digits =
        Double.dropTrailingZeros (Nat.toDigits 10 digits) ++ List.replicate k '0' ∧
      digits = Digits.value (Double.dropTrailingZeros (Nat.toDigits 10 digits)) * 10 ^ k ∧
      Leads (Double.dropTrailingZeros (Nat.toDigits 10 digits)) := by
  obtain ⟨k, all⟩ := dropTrailingZeros_append (Nat.toDigits 10 digits)
  have first := Digits.head?_toDigits pos
  have each : ∀ c ∈ Nat.toDigits 10 digits, c.isDigit = true :=
    fun c mem => Digits.isDigit_of_mem_toDigits mem
  have value := Digits.value_toDigits digits
  generalize Nat.toDigits 10 digits = ds at all first each value
  generalize Double.dropTrailingZeros ds = kept at all
  subst all
  rw [Digits.value_zeros_after] at value
  have positive : 0 < Digits.value kept := by
    by_contra zero
    rw [Nat.eq_zero_of_not_pos zero, Nat.zero_mul] at value
    omega
  refine ⟨k, rfl, value.symm, positive, fun c mem => each c (List.mem_append_left _ mem), ?_⟩
  intro zero
  apply first
  rw [List.head?_append, zero]
  rfl

theorem pointed_of_ne_nil {fraction : List Char} (h : fraction ≠ []) :
    pointed fraction = '.' :: fraction := by
  rw [pointed, List.isEmpty_eq_false_iff.2 h]
  rfl

theorem layOut_denotes (style : Double.Layout) {digits : Nat} (pos : 0 < digits) (place : Int) :
    ∃ n : Numeral, (Double.layOut style digits place).toList = n.chars ∧
      n.Denotes (Double.dropTrailingZeros (Nat.toDigits 10 digits))
        (place + (Nat.toDigits 10 digits).length) := by
  obtain ⟨-, -, -, leads⟩ := leads_written pos
  unfold Double.layOut
  dsimp only
  generalize Double.dropTrailingZeros (Nat.toDigits 10 digits) = ds at leads ⊢
  generalize place + (Nat.toDigits 10 digits).length = point
  by_cases within : style.leastPositional < point ∧ point ≤ style.firstExponential
  · simp only [if_pos within]
    -- The digits need a point before them unless the number is at least one.
    have before (zeros : Nat) : (String.ofList ('0' :: '.' ::
        (List.replicate zeros '0' ++ ds))).toList = (fractional ds zeros).chars := by
      rw [String.toList_ofList, chars, fractional, pointed_of_ne_nil
        (List.append_ne_nil_of_right_ne_nil _ leads.ne_nil)]
      simp [powered]
    rcases point with (zero | p) | p
    · exact ⟨fractional ds 0, before 0, fractional_denotes leads 0⟩
    · refine ⟨positional ds (p + 1), ?_, positional_denotes leads (Nat.succ_pos p)⟩
      dsimp only
      rw [String.toList_ofList, chars, pointed_of_ne_nil]
      · simp only [positional, powered, List.append_nil]
      · rw [positional]
        split
        next => exact List.cons_ne_nil _ _
        next some => exact fun nil => some (List.isEmpty_iff.2 nil)
    · exact ⟨fractional ds (p + 1), before (p + 1), fractional_denotes leads (p + 1)⟩
  · simp only [if_neg within]
    refine ⟨scientific style.exponentWidth ds (point - 1), ?_, ?_⟩
    · simp only [String.toList_append, String.toList_ofList, chars, scientific, pointed, powered,
        List.append_assoc]
      by_cases negative : point - 1 < 0
      · simp [negative]
      · simp [negative]
    · have denotes := scientific_denotes leads style.exponentWidth (point - 1)
      rwa [Int.sub_add_cancel] at denotes

theorem number?_layOut (style : Double.Layout) {digits : Nat} (pos : 0 < digits) (place : Int)
    (negative : Bool) {rest : List Char} (ends : Ends rest) :
    number? negative ((Double.layOut style digits place).toList ++ rest) =
      some (.float (Double.ofDecimal negative digits place), rest) := by
  obtain ⟨k, all, value, leads⟩ := leads_written pos
  obtain ⟨n, chars, denotes⟩ := layOut_denotes style pos place
  have length := congrArg List.length all
  rw [List.length_append, List.length_replicate] at length
  generalize Double.dropTrailingZeros (Nat.toDigits 10 digits) = ds at *
  have point : place + (Nat.toDigits 10 digits).length - ds.length = place + k := by omega
  rw [chars, number?_chars negative denotes.formed ends, denotes.double, denotes.value, point,
    ← Double.ofDecimal_shift negative leads.positive, ← value]
  rfl

end Numeral

def sign (negative : Bool) : List Char := if negative then ['-'] else []

theorem scalar?_signed (negative : Bool) {cs : List Char}
    (digit : ∃ d ∈ cs.head?, d.isDigit = true) :
    scalar? (sign negative ++ cs) = number? negative cs := by
  obtain ⟨d, head, digit⟩ := digit
  obtain ⟨rest, rfl⟩ := List.head?_eq_some_iff.1 head
  have other (c : Char) (h : c.isDigit = false) : d ≠ c := by
    rintro rfl
    rw [digit] at h
    cases h
  unfold scalar?
  cases negative <;> simp [sign, other]

theorem Numeral.Formed.head {n : Numeral} (formed : n.Formed) (rest : List Char) :
    ∃ d ∈ (n.chars ++ rest).head?, d.isDigit = true := by
  obtain ⟨d, ds, whole⟩ := List.exists_cons_of_ne_nil formed.whole.1
  refine ⟨d, ?_, formed.whole.2 d (by rw [whole]; exact .head _)⟩
  rw [Numeral.chars, whole]
  rfl

theorem toList_toString_int (i : Int) :
    (toString i).toList = sign (decide (i < 0)) ++ Nat.toDigits 10 i.natAbs := by
  cases i with
  | ofNat n => exact Digits.toList_toString n
  | negSucc n =>
      change ("-" ++ toString (n + 1)).toList = _
      rw [String.toList_append, Digits.toList_toString]
      simp [sign, Int.negSucc_lt_zero]

theorem formed_toDigits (n : Nat) : Numeral.Formed ⟨Nat.toDigits 10 n, [], none⟩ where
  whole := ⟨Nat.toDigits_ne_nil, fun _ mem => Digits.isDigit_of_mem_toDigits mem⟩
  leading zero := by
    rcases Nat.eq_zero_or_pos n with rfl | pos
    · rfl
    · exact absurd zero (Digits.head?_toDigits pos)
  fraction := nofun
  exponent := nofun

theorem scalar?_int (i : Int) {rest : List Char} (ends : Ends rest) :
    scalar? ((toString i).toList ++ rest) = some (.int i, rest) := by
  have formed := formed_toDigits i.natAbs
  have chars : Numeral.chars ⟨Nat.toDigits 10 i.natAbs, [], none⟩ = Nat.toDigits 10 i.natAbs :=
    List.append_nil _
  have head := formed.head rest
  have reads := Numeral.number?_chars (decide (i < 0)) formed ends
  rw [chars] at head reads
  rw [toList_toString_int, List.append_assoc, scalar?_signed _ head, reads]
  simp [Digits.value_toDigits, Digits.signed_natAbs]

theorem toList_mark (negative : Bool) :
    (if negative then "-" else "" : String).toList = sign negative := by
  cases negative <;> simp [sign]

theorem text_zero (negative : Bool) (exponent : Nat) :
    Double.text (.finite negative 0 exponent) = (if negative then "-" else "") ++ "0.0" := rfl

theorem text_succ (negative : Bool) (m exponent : Nat) :
    Double.text (.finite negative (m + 1) exponent) = (if negative then "-" else "") ++
      Double.layOut Double.layout (Double.shortest (m + 1) exponent).1
        (Double.shortest (m + 1) exponent).2 := rfl

theorem afterWord?_append (word : String) (rest : List Char) :
    afterWord? word (word.toList ++ rest) = some rest := by
  rw [afterWord?, if_pos (List.isPrefixOf_iff_prefix.2 (List.prefix_append ..)),
    ← String.length_toList, List.drop_left]

theorem scalar?_infinite (negative : Bool) (rest : List Char) :
    scalar? ((floatText (.infinite negative)).toList ++ rest) =
      some (.float (.infinite negative), rest) := by
  cases negative with
  | false =>
      have word := afterWord?_append "Infinity" rest
      simp_all [floatText, scalar?]
  | true =>
      have word := afterWord?_append "-Infinity" rest
      simp_all [floatText, scalar?]

theorem scalar?_zero (negative : Bool) {rest : List Char} (ends : Ends rest) :
    scalar? (sign negative ++ (['0', '.', '0'] ++ rest)) =
      some (.float (.finite negative 0 0), rest) := by
  have formed : Numeral.Formed ⟨['0'], ['0'], none⟩ := by
    refine ⟨⟨nofun, ?_⟩, fun _ => rfl, ?_, nofun⟩ <;>
      · intro c mem
        rw [List.mem_singleton.1 mem]
        rfl
  have zero : Numeral.digits ⟨['0'], ['0'], none⟩ = 0 := rfl
  have reads := Numeral.number?_chars negative formed ends
  rw [zero, Double.ofDecimal_zero] at reads
  exact (scalar?_signed _ (formed.head rest)).trans reads

theorem scalar?_float {x : Double} (formed : x.WellFormed) {rest : List Char} (ends : Ends rest) :
    scalar? ((floatText x).toList ++ rest) = some (.float x, rest) := by
  cases x with
  | infinite negative => exact scalar?_infinite negative rest
  | finite negative mantissa exponent =>
      change scalar? ((Double.text _).toList ++ rest) = _
      cases mantissa with
      | zero =>
          obtain rfl : exponent = 0 := formed.2.1.resolve_left (by decide)
          rw [text_zero, String.toList_append, toList_mark, List.append_assoc]
          exact scalar?_zero negative ends
      | succ m =>
          obtain ⟨pos, reads⟩ := Double.ofDecimal_shortest negative (Nat.succ_pos m) formed
          rw [text_succ, String.toList_append, toList_mark, List.append_assoc]
          generalize Double.shortest (m + 1) exponent = numeral at pos reads ⊢
          obtain ⟨n, chars, denotes⟩ := Numeral.layOut_denotes Double.layout pos numeral.2
          have head := denotes.formed.head rest
          rw [← chars] at head
          rw [scalar?_signed _ head, Numeral.number?_layOut _ pos _ _ ends, reads]

end DocMapper.Json
