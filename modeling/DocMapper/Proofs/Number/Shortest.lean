import DocMapper.Proofs.Number.Rounding

/-!
# Shortest numerals read back

One of the two numerals of seventeen digits around a double is less than half a gap away
from it, so it reads back, and so does the shortest numeral that is chosen.
-/

namespace DocMapper.Double

theorem decimalLength_le_iff {n k : Nat} (pos : 0 < k) : decimalLength n ≤ k ↔ n < 10 ^ k :=
  Nat.length_toDigits_le_iff (by decide) pos

theorem decimalLength_pos (n : Nat) : 0 < decimalLength n :=
  List.length_pos_iff.2 Nat.toDigits_ne_nil

theorem lt_decimalLength_iff {n k : Nat} (pos : 0 < k) : k < decimalLength n ↔ 10 ^ k ≤ n := by
  rw [← Nat.not_le, decimalLength_le_iff pos, Nat.not_lt]

theorem lt_pow_decimalLength (n : Nat) : n < 10 ^ decimalLength n :=
  (decimalLength_le_iff (decimalLength_pos n)).1 le_rfl

theorem pow_le_decimalLength {n : Nat} (pos : 0 < n) : 10 ^ (decimalLength n - 1) ≤ n := by
  rcases Nat.eq_zero_or_pos (decimalLength n - 1) with one | more
  · rw [one]
    exact pos
  · exact (lt_decimalLength_iff more).1 (by omega)

theorem decimalLength_shift {n : Nat} (pos : 0 < n) (k : Nat) :
    decimalLength (n * 10 ^ k) = decimalLength n + k := by
  have long := decimalLength_pos n
  have tens : 0 < 10 ^ k := Nat.pow_pos (by decide)
  refine Nat.le_antisymm ?_ ?_
  · rw [decimalLength_le_iff (by omega), Nat.pow_add]
    exact Nat.mul_lt_mul_of_pos_right (lt_pow_decimalLength n) tens
  · rcases Nat.eq_zero_or_pos (decimalLength n - 1 + k) with one | more
    · have := decimalLength_pos (n * 10 ^ k)
      omega
    · have longer : decimalLength n - 1 + k < decimalLength (n * 10 ^ k) := by
        rw [lt_decimalLength_iff more, Nat.pow_add]
        exact Nat.mul_le_mul_right _ (pow_le_decimalLength pos)
      omega

theorem ofDecimal_quotient (negative : Bool) {digits a b : Nat} (nonzero : digits ≠ 0)
    (least : b ≤ 330 + a + decimalLength digits) (most : a + decimalLength digits ≤ 310 + b) :
    ofDecimal negative digits ((a : Int) - b) =
      ofUnits negative (digits * (10 ^ a * unitsPerOne)) (10 ^ b) := by
  unfold ofDecimal
  simp only [Nat.pow_eq]
  rw [if_neg (by omega), if_neg (by omega)]
  generalize place : (a : Int) - b = exponent
  cases exponent with
  | ofNat e =>
      have sum : a = e + b := by
        rw [Int.ofNat_eq_natCast] at place
        omega
      have numerator :
          digits * (10 ^ a * unitsPerOne) = digits * 10 ^ e * unitsPerOne * 10 ^ b := by
        rw [sum, Nat.pow_add]
        ring
      have tens : 0 < 10 ^ b := Nat.pow_pos (by decide)
      rw [numerator]
      exact ((ofUnits_mul tens negative _ 1).symm.trans (by rw [Nat.one_mul]))
  | negSucc e =>
      have sum : b = e + 1 + a := by omega
      have numerator : digits * (10 ^ a * unitsPerOne) = digits * unitsPerOne * 10 ^ a := by ring
      have tens : 0 < 10 ^ a := Nat.pow_pos (by decide)
      rw [numerator, sum, Nat.pow_add]
      exact (ofUnits_mul tens negative _ _).symm

theorem ofDecimal_small (negative : Bool) {digits : Nat} {place : Int}
    (small : place + decimalLength digits < -330) :
    ofDecimal negative digits place = .finite negative 0 0 := by
  rw [ofDecimal.eq_def]
  exact if_pos (.inr small)

theorem ofDecimal_large (negative : Bool) {digits : Nat} {place : Int} (nonzero : digits ≠ 0)
    (large : 310 < place + decimalLength digits) :
    ofDecimal negative digits place = .infinite negative := by
  rw [ofDecimal.eq_def]
  dsimp only
  rw [if_neg (by omega), if_pos large]

theorem ofDecimal_shift (negative : Bool) {digits : Nat} (pos : 0 < digits) (k : Nat)
    (place : Int) : ofDecimal negative (digits * 10 ^ k) place =
      ofDecimal negative digits (place + k) := by
  have shifted : 0 < digits * 10 ^ k := Nat.mul_pos pos (Nat.pow_pos (by decide))
  have length := decimalLength_shift pos k
  by_cases small : place + decimalLength (digits * 10 ^ k) < -330
  · rw [ofDecimal_small _ small, ofDecimal_small _ (by omega)]
  by_cases large : 310 < place + decimalLength (digits * 10 ^ k)
  · rw [ofDecimal_large _ (by omega) large, ofDecimal_large _ (by omega) (by omega)]
  obtain ⟨a, b, rfl⟩ : ∃ a b : Nat, place = a - b := ⟨place.toNat, (-place).toNat, by omega⟩
  have sum : (a : Int) - b + k = (a + k : Nat) - b := by omega
  rw [ofDecimal_quotient negative (by omega) (by omega) (by omega), sum,
    ofDecimal_quotient negative (by omega) (by omega) (by omega), Nat.mul_assoc, Nat.pow_add,
    Nat.mul_left_comm (10 ^ k), Nat.mul_assoc]

/-- A numeral is at most half a step of its grid away from the double, and the steps are so
fine that it rounds to the double. -/
theorem near_of_grid {digits step unit mantissa exponent : Nat} (pos : 0 < unit)
    (above : 2 * (mantissa * 2 ^ exponent * unit) ≤ 2 * (digits * step) + step)
    (below : 2 * (digits * step) ≤ 2 * (mantissa * 2 ^ exponent * unit) + step)
    (fine : 10 ^ 16 * step ≤ mantissa * 2 ^ exponent * unit) (small : mantissa < 2 ^ 53) :
    Near (digits * step) unit mantissa exponent := by
  have gap : 0 < unit * 2 ^ exponent := Nat.mul_pos pos (Nat.two_pow_pos exponent)
  have narrow : mantissa * (unit * 2 ^ exponent) ≤ (2 ^ 53 - 1) * (unit * 2 ^ exponent) :=
    Nat.mul_le_mul_right _ (by omega)
  rw [Nat.mul_assoc, Nat.mul_comm _ unit] at above below fine
  generalize scaled : unit * 2 ^ exponent = g at above below fine gap narrow
  constructor
  · rw [scaled, Nat.mul_assoc]
    omega
  · rw [scaled, Nat.add_mul, Nat.mul_assoc]
    omega
  · rintro rfl -
    rw [scaled]
    omega

theorem bracket_spec (n count : Nat) :
    let (low, grid) := bracket n count
    low * (10 ^ grid * unitsPerOne) ≤ n * 10 ^ scale ∧
      n * 10 ^ scale < (low + 1) * (10 ^ grid * unitsPerOne) := by
  simp only [bracket, Nat.pow_eq]
  generalize decimalLength (n * 10 ^ scale / unitsPerOne) - count = grid
  have step : 0 < 10 ^ grid * unitsPerOne := Nat.mul_pos (Nat.pow_pos (by decide)) unitsPerOne_pos
  generalize n * 10 ^ scale = value
  rw [Nat.div_div_eq_div_mul, Nat.mul_comm unitsPerOne, Nat.mul_comm (_ + 1)]
  exact ⟨Nat.div_mul_le_self .., Nat.lt_mul_div_succ _ step⟩

theorem least_scaled : 10 ^ 76 * unitsPerOne ≤ 10 ^ scale := by decide +kernel

theorem most_scaled {exponent : Nat} (bounded : exponent ≤ 2045) :
    2 ^ 53 * 2 ^ exponent * 10 ^ scale ≤ 10 ^ 709 * unitsPerOne := by
  have grows (top : Nat) (h : exponent ≤ top) : 2 ^ exponent ≤ 2 ^ top :=
    Nat.pow_le_pow_right (by decide) h
  have powers := grows 2045 bounded
  have most : 2 ^ 53 * 2 ^ 2045 * 10 ^ scale ≤ 10 ^ 709 * unitsPerOne := by decide +kernel
  generalize 2 ^ 2045 = power at powers most
  exact (Nat.mul_le_mul_right _ (Nat.mul_le_mul_left _ powers)).trans most

theorem decimalLength_scaled {negative : Bool} {mantissa exponent : Nat} (pos : 0 < mantissa)
    (formed : (finite negative mantissa exponent).WellFormed) :
    let length := decimalLength (mantissa * 2 ^ exponent * 10 ^ scale / unitsPerOne)
    76 < length ∧ length ≤ 709 := by
  obtain ⟨small, -, bounded⟩ := formed
  constructor
  · rw [lt_decimalLength_iff (by decide), Nat.le_div_iff_mul_le unitsPerOne_pos]
    exact least_scaled.trans
      (Nat.le_mul_of_pos_left _ (Nat.mul_pos pos (Nat.two_pow_pos exponent)))
  · rw [decimalLength_le_iff (by decide), Nat.div_lt_iff_lt_mul unitsPerOne_pos]
    have less := Nat.mul_lt_mul_of_pos_right small (Nat.two_pow_pos exponent)
    exact (Nat.mul_lt_mul_of_pos_right less (Nat.pow_pos (by decide))).trans_le
      (most_scaled bounded)

/-! ## Reading back -/

theorem ofDecimal_zero (negative : Bool) (place : Int) :
    ofDecimal negative 0 place = .finite negative 0 0 := by
  rw [ofDecimal.eq_def]
  exact if_pos (.inl rfl)

theorem digits_ne_zero {digits mantissa exponent : Nat} {place : Int} (pos : 0 < mantissa)
    (reads : ofDecimal false digits place = .finite false mantissa exponent) : digits ≠ 0 := by
  rintro rfl
  rw [ofDecimal_zero] at reads
  cases reads
  exact absurd pos (Nat.lt_irrefl 0)

theorem nearer?_cases {lowReads highReads : Bool} {order : Ordering} {low digits : Nat}
    (found : nearer? lowReads highReads order low = some digits) :
    lowReads = true ∧ digits = low ∨ highReads = true ∧ digits = low + 1 := by
  unfold nearer? at found
  grind

theorem nearer?_isSome (lowReads highReads : Bool) (order : Ordering) (low : Nat) :
    (nearer? lowReads highReads order low).isSome = (lowReads || highReads) := by
  unfold nearer?
  grind

theorem numeral?_readsBack {mantissa exponent count digits : Nat} {place : Int}
    (found : numeral? mantissa exponent count = some (digits, place)) :
    ofDecimal false digits place = .finite false mantissa exponent := by
  obtain ⟨chosen, nearer, rest⟩ := Option.map_eq_some_iff.1 found
  cases rest
  obtain ⟨reads, rfl⟩ | ⟨reads, rfl⟩ := nearer?_cases nearer
  · exact eq_of_beq reads
  · exact eq_of_beq reads

theorem readsBack_of_grid {mantissa exponent digits grid : Nat}
    (formed : (finite false mantissa exponent).WellFormed)
    (nonzero : digits ≠ 0) (least : scale ≤ 330 + grid + decimalLength digits)
    (most : grid + decimalLength digits ≤ 310 + scale)
    (above : 2 * (mantissa * 2 ^ exponent * 10 ^ scale) ≤
      2 * (digits * (10 ^ grid * unitsPerOne)) + 10 ^ grid * unitsPerOne)
    (below : 2 * (digits * (10 ^ grid * unitsPerOne)) ≤
      2 * (mantissa * 2 ^ exponent * 10 ^ scale) + 10 ^ grid * unitsPerOne)
    (fine : 10 ^ 16 * (10 ^ grid * unitsPerOne) ≤ mantissa * 2 ^ exponent * 10 ^ scale) :
    readsBack mantissa exponent (grid - scale) digits = true := by
  have unit : 0 < 10 ^ scale := Nat.pow_pos (by decide)
  rw [readsBack, ofDecimal_quotient false nonzero least most, beq_iff_eq]
  exact ofUnits_near unit false formed (near_of_grid unit above below fine formed.1)

theorem bracket_grid (n count : Nat) :
    (bracket n count).2 = decimalLength (n * 10 ^ scale / unitsPerOne) - count := by
  simp only [bracket, Nat.pow_eq]

theorem bracket_low {n count : Nat}
    (long : count + 1 < decimalLength (n * 10 ^ scale / unitsPerOne)) :
    10 ^ count ≤ (bracket n (count + 1)).1 ∧ (bracket n (count + 1)).1 < 10 ^ (count + 1) := by
  simp only [bracket, Nat.pow_eq]
  generalize n * 10 ^ scale / unitsPerOne = scaled at long ⊢
  have cell : 0 < 10 ^ (decimalLength scaled - (count + 1)) := Nat.pow_pos (by decide)
  constructor
  · rw [Nat.le_div_iff_mul_le cell, ← Nat.pow_add]
    exact (lt_decimalLength_iff (by omega)).1 (by omega)
  · rw [Nat.div_lt_iff_lt_mul cell, ← Nat.pow_add]
    exact (lt_pow_decimalLength scaled).trans_le (Nat.pow_le_pow_right (by decide) (by omega))

theorem numeral?_seventeen {mantissa exponent : Nat} (pos : 0 < mantissa)
    (formed : (finite false mantissa exponent).WellFormed) :
    (numeral? mantissa exponent 17).isSome := by
  obtain ⟨long, short⟩ := decimalLength_scaled pos formed
  have around := bracket_spec (mantissa * 2 ^ exponent) 17
  have digits := bracket_low (Nat.lt_of_lt_of_le (by decide : 16 + 1 < 77) long)
  have sum := bracket_grid (mantissa * 2 ^ exponent) 17
  unfold numeral?
  simp only [Nat.pow_eq, Option.isSome_map, nearer?_isSome, Bool.or_eq_true]
  generalize bracket (mantissa * 2 ^ exponent) 17 = found at around digits sum ⊢
  obtain ⟨low, grid⟩ := found
  dsimp only at around digits sum ⊢
  obtain ⟨atLeast, lessThan⟩ := around
  have length (either : Nat) (least : low ≤ either) (most : either ≤ low + 1) :
      16 < decimalLength either ∧ decimalLength either ≤ 18 :=
    ⟨(lt_decimalLength_iff (by decide)).2 (by omega),
      (decimalLength_le_iff (by decide)).2 (by omega)⟩
  have lower := length low (by omega) (by omega)
  have upper := length (low + 1) (by omega) (by omega)
  have bound : scale = 400 := rfl
  have fine : 10 ^ 16 * (10 ^ grid * unitsPerOne) ≤ mantissa * 2 ^ exponent * 10 ^ scale :=
    (Nat.mul_le_mul_right _ digits.1).trans atLeast
  have middle : (2 * low + 1) * (10 ^ grid * unitsPerOne) =
      2 * (low * (10 ^ grid * unitsPerOne)) + 10 ^ grid * unitsPerOne := by ring
  have next : (low + 1) * (10 ^ grid * unitsPerOne) =
      low * (10 ^ grid * unitsPerOne) + 10 ^ grid * unitsPerOne := by ring
  -- The numeral on the nearer side of the middle reads back.
  by_cases nearer : 2 * (mantissa * 2 ^ exponent * 10 ^ scale) ≤
      (2 * low + 1) * (10 ^ grid * unitsPerOne)
  · left
    refine readsBack_of_grid formed (by omega) (by omega) (by omega) ?_ ?_ fine
    · omega
    · omega
  · right
    refine readsBack_of_grid formed (by omega) (by omega) (by omega) ?_ ?_ fine
    · omega
    · omega

theorem ofUnits_sign {n d mantissa exponent : Nat} (negative : Bool)
    (rounds : ofUnits false n d = .finite false mantissa exponent) :
    ofUnits negative n d = .finite negative mantissa exponent := by
  unfold ofUnits at rounds ⊢
  dsimp only at rounds ⊢
  generalize ite (_ = Nat.pow 2 53) _ _ = rounded at rounds ⊢
  split_ifs at rounds ⊢
  cases rounds
  rfl

theorem ofDecimal_sign {digits mantissa exponent : Nat} {place : Int} (negative : Bool)
    (reads : ofDecimal false digits place = .finite false mantissa exponent) :
    ofDecimal negative digits place = .finite negative mantissa exponent := by
  rw [ofDecimal.eq_def] at reads ⊢
  dsimp only at reads ⊢
  split_ifs at reads ⊢ with small large
  · cases reads
    rfl
  · cases place with
    | ofNat e => exact ofUnits_sign negative reads
    | negSucc e => exact ofUnits_sign negative reads

theorem ofDecimal_shortest {mantissa exponent : Nat} (negative : Bool) (pos : 0 < mantissa)
    (formed : (finite false mantissa exponent).WellFormed) :
    0 < (shortest mantissa exponent).1 ∧
      ofDecimal negative (shortest mantissa exponent).1 (shortest mantissa exponent).2 =
        .finite negative mantissa exponent := by
  have found : ((List.range' 1 17).findSome? (numeral? mantissa exponent)).isSome := by
    rw [List.findSome?_isSome_iff]
    exact ⟨17, by decide, numeral?_seventeen pos formed⟩
  obtain ⟨⟨digits, place⟩, first⟩ := Option.isSome_iff_exists.1 found
  obtain ⟨count, -, chosen⟩ := List.exists_of_findSome?_eq_some first
  have reads := numeral?_readsBack chosen
  rw [shortest, first]
  exact ⟨Nat.pos_of_ne_zero (digits_ne_zero pos reads), ofDecimal_sign negative reads⟩

end DocMapper.Double
