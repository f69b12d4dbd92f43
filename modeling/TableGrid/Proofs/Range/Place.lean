import TableGrid.Range.Rule

/-!
# What rules match

The bounds of a rule are words of 64 bits, and so is the arithmetic that resolves them. In a table
whose size is a word no step of it leaves the words, so a bound stands for the index that it has in
unbounded integers: counted from the end if it is negative, and moved to the nearest index inside.

## Key results

- `toInt_saturatingAdd`: saturating addition is addition moved to the nearest word
- `index_eq_place`: what a bound stands for
- `rectangle?_eq_some`, `interval?_eq_some`: when a rule resolves, and to what
- `matches_iff_covers`: which cells, rows and columns a rule matches
-/

namespace TableGrid

/-- Whether a rectangle lies inside a table of the given size. -/
def Rectangle.Inside (r : Rectangle) (rows cols : Nat) : Prop :=
  (r.top < rows ∧ r.bottom < rows) ∧ r.left < cols ∧ r.right < cols

namespace Rule

variable {rule : Rule} {values : List Int64} {bound : Int64} {rows cols row col size i : Nat}

/-! ## In unbounded integers -/

/-- The index that a bound stands for among `size`. -/
def place (size : Nat) (bound : Int64) : Int :=
  min (max (if bound.toInt < 0 then size + bound.toInt else bound.toInt) 0) (size - 1)

/-- The index that the bound with the given number stands for, or `default` when it is missing. -/
def placeAt (values : List Int64) (i size : Nat) (default : Int) : Int :=
  (values[i]?.map (place size)).getD default

/-- Whether a rule covers a cell of a table of the given size: it has bounds, the table has cells,
    and the cell lies between what the bounds stand for. A missing start is zero, and a missing end
    is its start. -/
def Covers (rule : Rule) (rows cols row col : Nat) : Prop :=
  ∃ values, rule = .bounds values ∧ values ≠ [] ∧ 0 < rows ∧ 0 < cols ∧
    (placeAt values 0 rows 0 ≤ row ∧ row ≤ placeAt values 2 rows (placeAt values 0 rows 0)) ∧
    placeAt values 1 cols 0 ≤ col ∧ col ≤ placeAt values 3 cols (placeAt values 1 cols 0)

/-- Whether a rule covers one of `size` rows or columns. -/
def CoversIndex (rule : Rule) (size i : Nat) : Prop :=
  ∃ values, rule = .bounds values ∧ values ≠ [] ∧ 0 < size ∧
    placeAt values 0 size 0 ≤ i ∧ i ≤ placeAt values 1 size (placeAt values 0 size 0)

/-- Whether a rule names nothing: it has no bounds, or it was not understood. -/
def NamesNothing : Rule → Prop
  | .bounds values => values = []
  | .malformed _ => True

theorem place_nonneg (hsize : 0 < size) (bound : Int64) : 0 ≤ place size bound := by
  unfold place
  omega

theorem place_lt (size : Nat) (bound : Int64) : place size bound < size := by
  unfold place
  omega

/-! ## In words -/

/-- Saturating addition is addition that is moved to the nearest word. -/
theorem toInt_saturatingAdd (a b : Int64) :
    (saturatingAdd a b).toInt =
      min (max (a.toInt + b.toInt) Int64.minValue.toInt) Int64.maxValue.toInt := by
  have hmin : Int64.minValue.toInt = -9223372036854775808 := by decide
  have hmax : Int64.maxValue.toInt = 9223372036854775807 := by decide
  unfold saturatingAdd
  dsimp only
  split
  · omega
  · split
    · omega
    · -- The sum is a word, so nothing wraps around.
      rw [Int64.toInt_ofInt_of_le (by omega) (by omega)]
      omega

/-- A word that is moved between zero and another word. -/
theorem toInt_clamp {x last : Int64} (hlast : 0 ≤ last.toInt) :
    (if x < 0 then 0 else if last < x then last else x).toInt =
      min (max x.toInt 0) last.toInt := by
  have hzero : (0 : Int64).toInt = 0 := by decide
  simp only [Int64.lt_iff_toInt_lt, hzero]
  split
  · omega
  · split <;> omega

/-- The last index of a table is a word. -/
theorem toInt_count_sub_one (hsize : size < Nat.pow 2 63) (hpos : 0 < size) :
    (Int64.ofNat size - 1).toInt = size - 1 := by
  have hpow : Nat.pow 2 63 = 9223372036854775808 := rfl
  have hone : (1 : Int64).toInt = 1 := by decide
  rw [Int64.toInt_sub, Int64.toInt_ofNat_of_lt hsize, hone]
  exact Int.bmod_eq_of_le (by omega) (by omega)

/-- Counted from the end, a bound does not leave the words. -/
theorem toInt_position (hsize : size < Nat.pow 2 63) (bound : Int64) :
    (if bound < 0 then saturatingAdd (Int64.ofNat size) bound else bound).toInt =
      if bound.toInt < 0 then size + bound.toInt else bound.toInt := by
  have hpow : Nat.pow 2 63 = 9223372036854775808 := rfl
  have hmin : Int64.minValue.toInt = -9223372036854775808 := by decide
  have hmax : Int64.maxValue.toInt = 9223372036854775807 := by decide
  have hzero : (0 : Int64).toInt = 0 := by decide
  have hbound := Int64.minValue_le_toInt bound
  simp only [Int64.lt_iff_toInt_lt, hzero]
  split
  · -- A word and a negative word: the sum is below the one and above the other.
    rw [toInt_saturatingAdd, Int64.toInt_ofNat_of_lt hsize]
    omega
  · rfl

/-- A bound stands for the index that it has in unbounded integers. -/
theorem index_eq_place (hsize : size < Nat.pow 2 63) (hpos : 0 < size) (bound : Int64) :
    (index size bound : Int) = place size bound := by
  have hlast := toInt_count_sub_one hsize hpos
  have hindex : index size bound = (place size bound).toNat := by
    unfold index place
    dsimp only
    rw [toInt_clamp (by omega), hlast, toInt_position hsize]
  rw [hindex]
  exact Int.toNat_of_nonneg (place_nonneg hpos bound)

theorem indexAt_eq_placeAt (hsize : size < Nat.pow 2 63) (hpos : 0 < size)
    (values : List Int64) (i default : Nat) :
    (indexAt values i size default : Int) = placeAt values i size default := by
  unfold indexAt placeAt
  cases values[i]? with
  | none => rfl
  | some bound => exact index_eq_place hsize hpos bound

/-- Whether an index lies between two bounds is the same in words and in unbounded integers. -/
theorem between_placeAt_iff (hsize : size < Nat.pow 2 63) (hpos : 0 < size) (values : List Int64)
    (i j n : Nat) :
    placeAt values i size 0 ≤ n ∧ n ≤ placeAt values j size (placeAt values i size 0) ↔
      indexAt values i size 0 ≤ n ∧ n ≤ indexAt values j size (indexAt values i size 0) := by
  have hstart : placeAt values i size 0 = indexAt values i size 0 :=
    (indexAt_eq_placeAt hsize hpos values i 0).symm
  rw [hstart, ← indexAt_eq_placeAt hsize hpos, Int.ofNat_le, Int.ofNat_le]

/-- What a bound stands for lies inside, if what stands for a missing one does. -/
theorem indexAt_lt (hsize : size < Nat.pow 2 63) {default : Nat} (hdefault : default < size) :
    indexAt values i size default < size := by
  unfold indexAt
  cases values[i]? with
  | none => exact hdefault
  | some bound =>
    have hplace := index_eq_place hsize (by omega) bound
    have hlt := place_lt size bound
    show index size bound < size
    omega

/-! ## Rectangles and intervals -/

/-- A rule resolves in a table with cells if it has bounds. -/
theorem rectangle?_eq_some {r : Rectangle} :
    rule.rectangle? rows cols = some r ↔
      ∃ values, rule = .bounds values ∧ values ≠ [] ∧ 0 < rows ∧ 0 < cols ∧
        r = ⟨indexAt values 0 rows 0, indexAt values 1 cols 0,
          indexAt values 2 rows (indexAt values 0 rows 0),
          indexAt values 3 cols (indexAt values 1 cols 0)⟩ := by
  cases rule with
  | malformed raw => simp [rectangle?]
  | bounds values =>
    cases values with
    | nil => simp [rectangle?]
    | cons bound values =>
      simp only [rectangle?, Rule.bounds.injEq, exists_eq_left', ne_eq, reduceCtorEq,
        not_false_eq_true, true_and]
      split
      · rename_i hzero
        simp only [reduceCtorEq, false_iff]
        omega
      · rename_i hsize
        rw [Option.some.injEq]
        constructor
        · rintro rfl
          exact ⟨by omega, by omega, rfl⟩
        · rintro ⟨-, -, rfl⟩
          rfl

theorem interval?_eq_some {first last : Nat} :
    rule.interval? size = some (first, last) ↔
      ∃ values, rule = .bounds values ∧ values ≠ [] ∧ 0 < size ∧
        first = indexAt values 0 size 0 ∧ last = indexAt values 1 size first := by
  cases rule with
  | malformed raw => simp [interval?]
  | bounds values =>
    cases values with
    | nil => simp [interval?]
    | cons bound values =>
      simp only [interval?, Rule.bounds.injEq, exists_eq_left', ne_eq, reduceCtorEq,
        not_false_eq_true, true_and]
      split
      · rename_i hzero
        simp only [reduceCtorEq, false_iff]
        omega
      · rename_i hsize
        rw [Option.some.injEq, Prod.mk.injEq]
        constructor
        · rintro ⟨rfl, rfl⟩
          exact ⟨by omega, rfl, rfl⟩
        · rintro ⟨-, rfl, rfl⟩
          exact ⟨rfl, rfl⟩

theorem inside_of_rectangle? {r : Rectangle} (hrows : rows < Nat.pow 2 63)
    (hcols : cols < Nat.pow 2 63) (h : rule.rectangle? rows cols = some r) :
    r.Inside rows cols := by
  obtain ⟨values, -, -, hpos, hpos', rfl⟩ := rectangle?_eq_some.1 h
  exact ⟨⟨indexAt_lt hrows hpos, indexAt_lt hrows (indexAt_lt hrows hpos)⟩,
    indexAt_lt hcols hpos', indexAt_lt hcols (indexAt_lt hcols hpos')⟩

theorem lt_of_interval? {first last : Nat} (hsize : size < Nat.pow 2 63)
    (h : rule.interval? size = some (first, last)) : first < size ∧ last < size := by
  obtain ⟨values, -, -, hpos, rfl, rfl⟩ := interval?_eq_some.1 h
  exact ⟨indexAt_lt hsize hpos, indexAt_lt hsize (indexAt_lt hsize hpos)⟩

theorem matchesCell_iff :
    rule.matchesCell rows cols row col = true ↔
      ∃ r, rule.rectangle? rows cols = some r ∧ (r.top ≤ row ∧ row ≤ r.bottom) ∧
        r.left ≤ col ∧ col ≤ r.right := by
  unfold matchesCell
  cases rule.rectangle? rows cols with
  | none => simp
  | some r => simp [Rectangle.contains, and_assoc]

theorem matchesIndex_iff :
    rule.matchesIndex size i = true ↔
      ∃ first last, rule.interval? size = some (first, last) ∧ first ≤ i ∧ i ≤ last := by
  unfold matchesIndex
  cases rule.interval? size with
  | none => simp
  | some span => simp [Prod.ext_iff, and_assoc]

/-! ## Cells, rows and columns -/

theorem matchesCell_iff_covers (hrows : rows < Nat.pow 2 63) (hcols : cols < Nat.pow 2 63) :
    rule.matchesCell rows cols row col = true ↔ rule.Covers rows cols row col := by
  simp only [matchesCell_iff, rectangle?_eq_some, Covers]
  constructor
  · rintro ⟨_, ⟨values, hrule, hne, hpos, hpos', rfl⟩, hrow, hcol⟩
    exact ⟨values, hrule, hne, hpos, hpos', (between_placeAt_iff hrows hpos values 0 2 row).2 hrow,
      (between_placeAt_iff hcols hpos' values 1 3 col).2 hcol⟩
  · rintro ⟨values, hrule, hne, hpos, hpos', hrow, hcol⟩
    exact ⟨_, ⟨values, hrule, hne, hpos, hpos', rfl⟩,
      (between_placeAt_iff hrows hpos values 0 2 row).1 hrow,
      (between_placeAt_iff hcols hpos' values 1 3 col).1 hcol⟩

theorem matchesIndex_iff_coversIndex (hsize : size < Nat.pow 2 63) :
    rule.matchesIndex size i = true ↔ rule.CoversIndex size i := by
  simp only [matchesIndex_iff, interval?_eq_some, CoversIndex]
  constructor
  · rintro ⟨_, _, ⟨values, hrule, hne, hpos, rfl, rfl⟩, hindex⟩
    exact ⟨values, hrule, hne, hpos, (between_placeAt_iff hsize hpos values 0 1 i).2 hindex⟩
  · rintro ⟨values, hrule, hne, hpos, hindex⟩
    exact ⟨_, _, ⟨values, hrule, hne, hpos, rfl, rfl⟩,
      (between_placeAt_iff hsize hpos values 0 1 i).1 hindex⟩

/-- Bounds behind the fourth are not looked at. -/
theorem rectangle?_take (values : List Int64) (rows cols : Nat) :
    rectangle? (.bounds (values.take 4)) rows cols = rectangle? (.bounds values) rows cols := by
  have hindexAt : ∀ i < 4, ∀ size default,
      indexAt (values.take 4) i size default = indexAt values i size default := by
    intro i hi size default
    rw [indexAt, indexAt, List.getElem?_take_of_lt hi]
  cases values with
  | nil => rfl
  | cons bound values =>
    rw [List.take_succ_cons] at hindexAt ⊢
    simp only [rectangle?, hindexAt 0 (by decide), hindexAt 1 (by decide), hindexAt 2 (by decide),
      hindexAt 3 (by decide)]

/-- A rule that is malformed or has no bounds matches nothing, and neither does any rule in a table
    without cells. -/
theorem matchesCell_eq_false (h : rule.NamesNothing ∨ rows = 0 ∨ cols = 0) :
    rule.matchesCell rows cols row col = false := by
  rw [Bool.eq_false_iff]
  intro hmatches
  obtain ⟨r, hr, -⟩ := matchesCell_iff.1 hmatches
  obtain ⟨values, rfl, hne, hpos, hpos', -⟩ := rectangle?_eq_some.1 hr
  rcases h with hnothing | hzero
  · exact hne hnothing
  · omega

theorem matchesIndex_eq_false (h : rule.NamesNothing ∨ size = 0) :
    rule.matchesIndex size i = false := by
  rw [Bool.eq_false_iff]
  intro hmatches
  obtain ⟨first, last, hspan, -⟩ := matchesIndex_iff.1 hmatches
  obtain ⟨values, rfl, hne, hpos, -⟩ := interval?_eq_some.1 hspan
  rcases h with hnothing | hzero
  · exact hne hnothing
  · omega

/-- In a table whose size is a word a rule matches the cells, rows and columns that it covers in
    unbounded integers; bounds behind the fourth do not count. What it resolves to lies inside the
    table, so it matches nothing outside, and without bounds or cells it matches nothing at all. -/
theorem matches_iff_covers (rule : Rule) {rows cols : Nat} (hrows : rows < Nat.pow 2 63)
    (hcols : cols < Nat.pow 2 63) :
    (∀ row col, rule.matchesCell rows cols row col = true ↔ rule.Covers rows cols row col) ∧
    (∀ i, rule.matchesIndex rows i = true ↔ rule.CoversIndex rows i) ∧
    (∀ values, rule = .bounds values →
      rule.rectangle? rows cols = rectangle? (.bounds (values.take 4)) rows cols) ∧
    (∀ r, rule.rectangle? rows cols = some r → r.Inside rows cols) ∧
    (∀ first last, rule.interval? rows = some (first, last) → first < rows ∧ last < rows) ∧
    (∀ row col, rule.matchesCell rows cols row col = true → row < rows ∧ col < cols) ∧
    (∀ i, rule.matchesIndex rows i = true → i < rows) ∧
    (rule.NamesNothing ∨ rows = 0 ∨ cols = 0 →
      ∀ row col, rule.matchesCell rows cols row col = false) ∧
    (rule.NamesNothing ∨ rows = 0 → ∀ i, rule.matchesIndex rows i = false) := by
  refine ⟨fun row col => matchesCell_iff_covers hrows hcols,
    fun i => matchesIndex_iff_coversIndex hrows, ?_, fun r => inside_of_rectangle? hrows hcols,
    fun first last => lt_of_interval? hrows, fun row col hmatches => ?_, fun i hmatches => ?_,
    fun h row col => matchesCell_eq_false h, fun h i => matchesIndex_eq_false h⟩
  · rintro values rfl
    exact (rectangle?_take values rows cols).symm
  · obtain ⟨r, hr, hrow, hcol⟩ := matchesCell_iff.1 hmatches
    obtain ⟨hbottom, hright⟩ := inside_of_rectangle? hrows hcols hr
    exact ⟨by omega, by omega⟩
  · obtain ⟨first, last, hspan, hindex⟩ := matchesIndex_iff.1 hmatches
    have hlast := lt_of_interval? hrows hspan
    omega

/-- The least word counts from the end as far as it goes, and the last of four bounds is the end of
    the columns; a fifth one is not looked at. -/
theorem matches_iff_covers_least : ∃ rule : Rule, ∃ rows cols : Nat,
    rule = .bounds [-1, Int64.minValue, 7, Int64.maxValue, 0] ∧ rows = 4 ∧
    cols = Nat.pow 2 63 - 1 ∧ rows < Nat.pow 2 63 ∧ cols < Nat.pow 2 63 ∧
    rule.matchesCell rows cols 3 (Nat.pow 2 63 - 2) = true ∧
    rule.matchesCell rows cols 2 0 = false ∧ rule.matchesIndex rows 0 = false := by
  have hrows : 4 < Nat.pow 2 63 := by decide
  have hcols : Nat.pow 2 63 - 1 < Nat.pow 2 63 := by decide
  obtain ⟨hcell, hindex, -⟩ :=
    matches_iff_covers (.bounds [-1, Int64.minValue, 7, Int64.maxValue, 0]) hrows hcols
  refine ⟨_, _, _, rfl, rfl, rfl, hrows, hcols, ?_, ?_, ?_⟩
  · exact (hcell _ _).2 ⟨_, rfl, by decide⟩
  · rw [Bool.eq_false_iff, ne_eq, hcell]
    rintro ⟨_, heq, h⟩
    cases heq
    revert h
    decide
  · rw [Bool.eq_false_iff, ne_eq, hindex]
    rintro ⟨_, heq, h⟩
    cases heq
    revert h
    decide

end Rule

end TableGrid
