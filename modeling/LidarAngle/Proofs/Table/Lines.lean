import LidarAngle.Proofs.Correction.Reach
import LidarAngle.Proofs.Decimal.Column
import LidarAngle.Proofs.Table

/-!
# The lines of a table

No column has a line break or a semicolon in it, so the text of a table is cut into its header and
one line for each angle, and a line into its three columns. These are the angle, the corrected angle
and their difference, rounded to millionths one by one. Of the three only the difference has a
rounding before that, which is less than the spacing of the columns for any angle that it matters
for, so the columns add up to within one millionth.

## Main definitions

* `Table.line` - a row without its end
* `Table.figures?` - what is read in the columns of a line
* `Table.millionths` - a number rounded to millionths

## Main statements

* `Table.splitOn_text`, `Table.splitOn_line` - the lines of a table, the columns of a line
* `Table.difference_error` - the error of a difference
* `Table.figures_of_lines` - the figures in a table
-/

namespace LidarAngle.Table

open Binary

/-- A row without its end. -/
def line (c : Correction) (angle : Float) : List Char :=
  cell angle ++ ';' :: cell (c.inDegrees angle) ++ ';' :: cell (c.inDegrees angle - angle)

/-- What is read in the columns of a line, as many numbers as columns, in millionths. -/
def figures? (line : List Char) : Option (List ℤ) :=
  (line.splitOn ';').mapM (Decimal.column? 6)

/-- A number rounded to millionths, and counted in them. -/
def millionths (x : Float) : ℤ :=
  nearest (value x * 10 ^ 6)

section Cut

theorem semicolon_notMem_cell (x : Float) : ';' ∉ cell x :=
  Decimal.notMem_column (by decide) (by unfold Decimal.IsPlain; decide)

theorem newline_notMem_cell (x : Float) : '\n' ∉ cell x :=
  Decimal.notMem_column (by decide) (by unfold Decimal.IsPlain; decide)

variable (c : Correction)

theorem row_eq : row c = fun angle => line c angle ++ ['\n'] :=
  rfl

theorem newline_notMem_line (angle : Float) : '\n' ∉ line c angle := by
  simp [line, newline_notMem_cell]

/-- A table is cut into its header and its rows. What is left behind the last line break is empty. -/
theorem splitOn_text (angles : List Float) :
    (text c angles).splitOn '\n' =
      "Input   ;Output  ;Correction".toList :: (angles.map (line c) ++ [[]]) := by
  have hheader : header = "Input   ;Output  ;Correction".toList ++ ['\n'] := rfl
  have hnewline : '\n' ∉ "Input   ;Output  ;Correction".toList := by simp
  have hrows : (angles.flatMap (row c)).splitOn '\n' = angles.map (line c) ++ [[]] :=
    row_eq c ▸ Text.splitOn_flatMap_append_self fun angle _ => newline_notMem_line c angle
  rw [text, hheader, List.append_assoc, List.singleton_append, List.splitOn_append_cons_self,
    List.splitOn_eq_singleton hnewline, hrows]
  rfl

/-- A row is cut into its columns. -/
theorem splitOn_line (angle : Float) :
    (line c angle).splitOn ';' =
      [cell angle, cell (c.inDegrees angle), cell (c.inDegrees angle - angle)] := by
  have hcell := fun x => List.splitOn_eq_singleton (semicolon_notMem_cell x)
  rw [line, List.splitOn_append_cons_self, List.splitOn_append_cons_self, hcell, hcell, hcell]
  rfl

end Cut

theorem column?_cell {x : Float} (h : x.isFinite = true) :
    Decimal.column? 6 (cell x) = some (millionths x) :=
  Decimal.column?_column (by norm_num) 10 h

/-- The difference of the corrected angle is exact for an angle that is far from zero. -/
theorem difference_error (calibration : Calibration) {angle : Float} (hangle : angle.isFinite = true) :
    ((Correction.ofCalibration calibration).inDegrees angle - angle).isFinite = true ∧
      |value ((Correction.ofCalibration calibration).inDegrees angle - angle) -
        (value ((Correction.ofCalibration calibration).inDegrees angle) - value angle)| ≤
          1 / 2 ^ 50 := by
  have hcorrected := ((Correction.isCoherent_ofCalibration calibration).inDegrees_error hangle).1
  have hmoved := Correction.abs_inDegrees_sub_le calibration hangle
  have hreach := calibration.reach_le
  generalize (Correction.ofCalibration calibration).inDegrees angle = corrected at *
  by_cases hfar : 2 * |value corrected - value angle| ≤ |value angle|
  · obtain ⟨hfinite, hexact⟩ := value_sub_of_near hcorrected hangle hfar
    refine ⟨hfinite, ?_⟩
    rw [hexact, sub_self, abs_zero]
    positivity
  · have hsmall : |value corrected - value angle| ≤ 2 ^ 3 := by
      norm_num at hmoved hreach ⊢
      linarith
    have hfinite := isFinite_sub hcorrected hangle
      ((hsmall.trans_lt (by norm_num)).trans_le (two_pow_le_overflow (n := 4) (by norm_num)))
    refine ⟨hfinite, (abs_value_sub_sub_le hcorrected hangle hfinite).trans ?_⟩
    norm_num at hsmall ⊢
    linarith

/-- Three numbers of which one is about the difference of the others are so in millionths, too. -/
theorem sub_sub_nearest {input output difference : ℚ}
    (h : |difference - (output - input)| ≤ 1 / 2 ^ 50) :
    nearest (output * 10 ^ 6) - nearest (input * 10 ^ 6) - nearest (difference * 10 ^ 6) ∈
      ({-1, 0, 1} : Set ℤ) := by
  have hinput := abs_le.1 (abs_nearest_sub_le (input * 10 ^ 6))
  have houtput := abs_le.1 (abs_nearest_sub_le (output * 10 ^ 6))
  have hdifference := abs_le.1 (abs_nearest_sub_le (difference * 10 ^ 6))
  obtain ⟨hlow, hhigh⟩ := abs_le.1 h
  generalize nearest (output * 10 ^ 6) = o at *
  generalize nearest (input * 10 ^ 6) = i at *
  generalize nearest (difference * 10 ^ 6) = d at *
  have hlt : ((o - i - d : ℤ) : ℚ) < 2 := by
    push_cast
    norm_num at *
    linarith
  have hgt : (-2 : ℚ) < (o - i - d : ℤ) := by
    push_cast
    norm_num at *
    linarith
  have hlt' : o - i - d < 2 := by exact_mod_cast hlt
  have hgt' : -2 < o - i - d := by exact_mod_cast hgt
  simp only [Set.mem_insert_iff, Set.mem_singleton_iff]
  omega

/-- The table of a calibration over a sweep of finite angles has the header, and a row for every
angle, whose columns are the figures rounded to millionths. They add up to within one millionth. -/
theorem figures_of_lines (calibration : Calibration) {c : Correction}
    (hc : c = .ofCalibration calibration) {sweep : Sweep} {angles : List Float}
    (hangles : sweep.angles = .ok angles) (hfinite : ∀ angle ∈ angles, angle.isFinite = true) :
    ∃ lines, (write c sweep {}).result =
        ({ held := Text.bytes (text c angles) }, .ok angles.length) ∧
      (text c angles).splitOn '\n' = "Input   ;Output  ;Correction".toList :: (lines ++ [[]]) ∧
      sweep.rows = .ok lines.length ∧
      lines.map figures? = angles.map (fun angle => some [millionths angle,
        millionths (c.inDegrees angle), millionths (c.inDegrees angle - angle)]) ∧
      ∀ line ∈ lines, ∃ input output correction,
        figures? line = some [input, output, correction] ∧
          output - input - correction ∈ ({-1, 0, 1} : Set ℤ) := by
  have hread : ∀ angle ∈ angles, figures? (line c angle) = some [millionths angle,
      millionths (c.inDegrees angle), millionths (c.inDegrees angle - angle)] := by
    intro angle hangle
    have hcoherent := Correction.isCoherent_ofCalibration calibration
    have hcorrected := (hcoherent.inDegrees_error (hfinite angle hangle)).1
    have hdifference := (difference_error calibration (hfinite angle hangle)).1
    rw [← hc] at hcorrected hdifference
    rw [figures?, splitOn_line]
    simp only [List.mapM_cons, List.mapM_nil, column?_cell (hfinite angle hangle),
      column?_cell hcorrected, column?_cell hdifference, Option.bind_eq_bind, Option.bind_some,
      Option.pure_def]
  refine ⟨angles.map (line c), ?_, splitOn_text c angles, ?_, ?_, ?_⟩
  · rw [result_write_of_unlimited rfl rfl hangles, ByteArray.empty_append]
  · rw [List.length_map]
    exact Sweep.length_of_angles hangles
  · rw [List.map_map]
    exact List.map_congr_left hread
  · rw [List.forall_mem_map]
    intro angle hangle
    refine ⟨_, _, _, hread angle hangle, sub_sub_nearest ?_⟩
    rw [hc]
    exact (difference_error calibration (hfinite angle hangle)).2

/-- The lines of three angles. -/
theorem figures_of_lines_three_angles :
    ({ start := -1, stop := 1, step := 1 } : Sweep).angles = .ok [-1, 0, 1] ∧
      (∀ angle ∈ ([-1, 0, 1] : List Float), angle.isFinite = true) ∧
      ∃ lines, (text (.ofCalibration ⟨15000, 450000, -2500⟩) [-1, 0, 1]).splitOn '\n' =
          "Input   ;Output  ;Correction".toList :: (lines ++ [[]]) ∧
        ({ start := -1, stop := 1, step := 1 } : Sweep).rows = .ok lines.length ∧
        ∀ line ∈ lines, ∃ input output correction,
          figures? line = some [input, output, correction] ∧
            output - input - correction ∈ ({-1, 0, 1} : Set ℤ) := by
  have hangles : ({ start := -1, stop := 1, step := 1 } : Sweep).angles = .ok [-1, 0, 1] := by
    decide
  have hfinite : ∀ angle ∈ ([-1, 0, 1] : List Float), angle.isFinite = true := by
    decide
  obtain ⟨lines, -, hlines, hrows, -, hsums⟩ :=
    figures_of_lines ⟨15000, 450000, -2500⟩ rfl hangles hfinite
  exact ⟨hangles, hfinite, lines, hlines, hrows, hsums⟩

end LidarAngle.Table
