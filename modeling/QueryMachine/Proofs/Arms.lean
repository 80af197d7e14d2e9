import Mathlib
import QueryMachine.Dispatch.Extract

/-!
The arms of a `switch`. Whether a `break` ends its arm is decided by the first line behind it that is neither a
comment, a closing brace nor blank, and wrongly so if that line is the last one. Every label gets one function, and
of all other lines only the remarks about falling through and the breaks that end an arm are not copied.
-/

namespace QueryMachine.Dispatch

variable {pre : String} {line name s : List Char}

theorem dropWord?_eq_some_iff {word s rest : List Char} : dropWord? word s = some rest ↔ s = word ++ rest := by
  fun_induction dropWord? word s <;> simp_all [eq_comm]

theorem startsWith_iff : startsWith pre s = true ↔ ∃ rest, s = pre.toList ++ rest := by
  simp [startsWith, Option.isSome_iff_exists, dropWord?_eq_some_iff]

/-! Breaks. -/

theorem not_isPassed_of_endsArm (h : endsArm line = true) : isPassed line = false := by
  simp only [endsArm, Bool.or_eq_true, startsWith_iff] at h
  obtain (⟨rest, rfl⟩ | ⟨rest, rfl⟩) | ⟨rest, rfl⟩ := h <;> rfl

/-- The answer of the walk over the lines that are left. -/
def decides (lines : List (List Char)) : Bool :=
  match lines.dropWhile isPassed with
  | [] => true
  | line :: rest => endsArm line || rest.isEmpty

theorem breakEndsFrom_eq (lines : Array (List Char)) {stop fuel i : Nat} (hi : i ≤ stop) (hstop : stop ≤ lines.size)
    (hfuel : stop - i ≤ fuel) :
    breakEndsFrom lines stop fuel i = .ok (decides ((lines.toList.take stop).drop i)) := by
  induction fuel generalizing i with
  | zero =>
    obtain rfl : i = stop := by omega
    simp [breakEndsFrom, decides]
  | succ fuel ih =>
    rw [breakEndsFrom]
    by_cases h : i < stop
    · have hline : (lines.toList.take stop).drop i = lines[i] :: (lines.toList.take stop).drop (i + 1) := by
        rw [List.drop_eq_getElem_cons (by simp; omega)]
        simp
      have hnext : ((i : Int) + 1 == stop) = ((lines.toList.take stop).drop (i + 1)).isEmpty := by
        rw [Bool.eq_iff_iff]
        simp
        omega
      have hread : (wrapIndex? lines.size i).bind (lines[·]?) = some lines[i] := by
        simp [wrapIndex?, show i < lines.size by omega]
      rw [if_pos (by omega), hread, hline]
      simp only
      split
      · rename_i hends
        simp [decides, not_isPassed_of_endsArm hends, hends]
      · split
        · rename_i hpass
          rw [← Nat.cast_succ, ih (by omega) (by omega), decides, decides, List.dropWhile_cons_of_pos hpass]
        · rename_i hends hpass
          rw [hnext, decides, List.dropWhile_cons_of_neg hpass]
          simp [hends]
    · obtain rfl : i = stop := by omega
      simp [decides]

/-- The lines behind `pos` and before `stop`. -/
def between (lines : Array (List Char)) (pos stop : Nat) : List (List Char) := (lines.toList.take stop).drop (pos + 1)

theorem breakEnds_eq (lines : Array (List Char)) {pos stop : Nat} (hpos : pos < stop) (hstop : stop ≤ lines.size) :
    breakEnds lines pos stop = .ok (decides (between lines pos stop)) := by
  rw [breakEnds, ← Nat.cast_succ]
  exact breakEndsFrom_eq lines hpos hstop (by omega)

theorem decides_iff (lines : List (List Char)) : decides lines = true ↔
    (∀ line, lines.find? (!isPassed ·) = some line → endsArm line = true) ∨
      ∃ line, lines.dropWhile isPassed = [line] ∧ endsArm line = false := by
  rw [decides, List.find?_not_eq_head?_dropWhile]
  cases lines.dropWhile isPassed with
  | nil => simp
  | cons line rest => cases h : endsArm line <;> simp [h]

theorem isBreak_of_not_copied {lines : Array (List Char)} {pos stop : Nat} (h : renderLine lines stop pos = .ok []) :
    isBreak (lines.getD pos []) = true ∧ breakEnds lines pos stop = .ok true := by
  revert h
  simp only [renderLine]
  split
  · split
    · cases label (lines.getD pos []) <;> cases label (lines.getD (pos + 1) []) <;> simp [bind, Except.bind, pure, Except.pure]
    · cases label (lines.getD pos []) <;> simp [bind, Except.bind, pure, Except.pure]
  · split
    · simp [pure, Except.pure]
    · split
      · rename_i hbreak
        cases breakEnds lines pos stop with
        | error e => simp [bind, Except.bind]
        | ok answer =>
          cases answer with
          | true => exact fun _ => ⟨hbreak, rfl⟩
          | false => simp [bind, Except.bind, pure, Except.pure]
      · simp [pure, Except.pure]

/-- A break ends its arm if the first line behind it that is not passed over ends the arm, or if there is no such
line, but also, whatever it says, if that line is the last one. Only breaks that end their arm are not copied. -/
theorem breakEnds_right_but_at_last_line (lines : Array (List Char)) {pos stop : Nat} (hpos : pos < stop)
    (hstop : stop ≤ lines.size) : ∃ answer, breakEnds lines pos stop = .ok answer ∧
    (answer = true ↔
      (∀ line, (between lines pos stop).find? (!isPassed ·) = some line → endsArm line = true) ∨
        ∃ line, (between lines pos stop).dropWhile isPassed = [line] ∧ endsArm line = false) ∧
    (renderLine lines stop pos = .ok [] → isBreak (lines.getD pos []) = true ∧ answer = true) := by
  refine ⟨_, breakEnds_eq lines hpos hstop, decides_iff _, fun h => ?_⟩
  obtain ⟨hbreak, hends⟩ := isBreak_of_not_copied h
  rw [breakEnds_eq lines hpos hstop] at hends
  exact ⟨hbreak, Except.ok.inj hends⟩

theorem breakEnds_right_but_at_last_line_twoMore :
    0 < 3 ∧ 3 ≤ #["break;".toList, "x = 1;".toList, "y = 2;".toList].size ∧
    breakEnds #["break;".toList, "x = 1;".toList, "y = 2;".toList] 0 3 = .ok false := by
  obtain ⟨answer, hanswer, hiff, -⟩ := breakEnds_right_but_at_last_line
    #["break;".toList, "x = 1;".toList, "y = 2;".toList] (show 0 < 3 by decide) (by decide)
  refine ⟨by decide, by decide, hanswer.trans (congrArg _ (Bool.eq_false_iff.mpr fun h => ?_))⟩
  rcases hiff.mp h with h | ⟨line, h, -⟩
  · exact absurd (h "x = 1;".toList (by decide)) (by decide)
  · cases show ["x = 1;".toList, "y = 2;".toList] = [line] from h

/-- A break before one last line of its arm is taken for its end, and is not copied. -/
theorem break_before_last_line_dropped :
    breakEnds #["break;".toList, "x = 1;".toList] 0 2 = .ok true ∧
    isPassed "x = 1;".toList = false ∧ endsArm "x = 1;".toList = false ∧
    extract ["switch".toList, "case A:".toList, "break;".toList, "x = 1;".toList, "default:".toList] =
      .ok [functionHead "A".toList, "x = 1;".toList] := by
  decide +kernel

/-! Functions. -/

/-- What a line becomes. -/
inductive Piece
  | head (name : List Char)
  /-- A function that calls the next one. -/
  | stub (name next : List Char)
  | call (target : List Char)
  | copy (line : List Char)
  | nothing

namespace Piece

def lines : Piece → List (List Char)
  | head name => [functionHead name]
  | stub name next => [functionHead name, functionCall next, ['\x7d']]
  | call target => [functionCall ("OP_".toList ++ target)]
  | copy line => [line]
  | nothing => []

/-- The name of the function that a piece defines or begins. -/
def name? : Piece → Option (List Char)
  | head name | stub name _ => some name
  | _ => none

def copied? : Piece → Option (List Char)
  | copy line => some line
  | _ => none

end Piece

/-- A line with the label `name`, and no colon behind it. -/
def IsLabel (line name : List Char) : Prop :=
  ∃ rest, line = "case ".toList ++ name ++ ':' :: rest ∧ '\n' ∉ name ∧ ':' ∉ rest

theorem beforeLast_eq_none {s : List Char} (h : ':' ∉ s) : beforeLast (· == ':') s = none := by
  induction s with
  | nil => rfl
  | cons c s ih =>
    simp only [List.mem_cons, not_or] at h
    simp [beforeLast, ih h.2, Ne.symm h.1]

theorem label?_of_isLabel (h : IsLabel line name) : label? line = some name := by
  obtain ⟨rest, rfl, hname, hrest⟩ := h
  have hlast : beforeLast (· == ':') (name ++ ':' :: rest) = some name := by
    induction name with
    | nil => simp [beforeLast, beforeLast_eq_none hrest]
    | cons c name ih =>
      simp only [List.mem_cons, not_or] at hname
      simp [beforeLast, ih hname.2, Ne.symm hname.1]
  have hword : dropWord? "case".toList ("case ".toList ++ name ++ ':' :: rest) = some (' ' :: (name ++ ':' :: rest)) :=
    dropWord?_eq_some_iff.mpr (by simp)
  rw [label?, hword]
  exact hlast

section Region

variable (lines : List (List Char))

/-- The position of the line that closes the region: the last one with `default`. -/
def closing : Nat := (region lines.toArray).2

/-- The positions behind the first line with `switch` and before the closing one. -/
def arms : List Nat := List.range' (region lines.toArray).1 (closing lines - (region lines.toArray).1)

abbrev startsArm (i : Nat) : Bool := startsWith "case" (lines.getD i [])

/-- A line that names the instruction its arm falls through to. -/
def isRemark (i : Nat) : Bool := isFallThrough (lines.getD i []) && (target? (lines.getD i [])).isSome

def isLastBreak (i : Nat) : Bool :=
  isBreak (lines.getD i []) && (breakEnds lines.toArray i (closing lines)).toOption == some true

/-- Lines that are neither labels, nor remarks, nor breaks that end their arm. -/
def isCopied (i : Nat) : Bool := !startsArm lines i && !isRemark lines i && !isLastBreak lines i

def labelAt (i : Nat) : List Char := (label? (lines.getD i [])).getD []

/-- What the line at position `i` becomes, if the labels can be read. -/
def pieceAt (i : Nat) : Piece :=
  if startsArm lines i then
    if startsArm lines (i + 1) then .stub (labelAt lines i) (labelAt lines (i + 1)) else .head (labelAt lines i)
  else if isRemark lines i then .call ((target? (lines.getD i [])).getD [])
  else if isLastBreak lines i then .nothing
  else .copy (lines.getD i [])

theorem name?_pieceAt (i : Nat) : (pieceAt lines i).name? = if startsArm lines i then some (labelAt lines i) else none := by
  simp only [pieceAt]
  split_ifs <;> rfl

theorem copied?_pieceAt (i : Nat) :
    (pieceAt lines i).copied? = if isCopied lines i then some (lines.getD i []) else none := by
  simp only [pieceAt, isCopied]
  split_ifs <;> simp_all [Piece.copied?]

theorem region_eq : region lines.toArray =
    (lines.findIdx (contains "switch") + 1, lines.length - 1 - lines.reverse.findIdx (contains "default")) := by
  simp only [region, List.findIdx_eq_getD_findIdx?, List.findIdx?_toArray, List.reverse_toArray, List.size_toArray]
  cases lines.reverse.findIdx? (contains "default") <;> simp

end Region

variable {lines : List (List Char)} {i : Nat}

theorem mem_arms : i ∈ arms lines ↔ (region lines.toArray).1 ≤ i ∧ i < closing lines := by
  rw [arms, List.mem_range'_1]
  omega

theorem any_take_iff {p : List Char → Bool} {n : Nat} (hn : n ≤ lines.length) :
    (lines.take n).any p = true ↔ lines.findIdx p < n := by
  rw [List.any_eq_true, ← List.findIdx_lt_length, List.findIdx_take, List.length_take]
  omega

theorem mem_arms_iff : i ∈ arms lines ↔
    (lines.take i).any (contains "switch") = true ∧ (lines.drop (i + 1)).any (contains "default") = true := by
  rw [mem_arms, closing, region_eq]
  by_cases hi : i < lines.length
  · have hdrop : lines.drop (i + 1) = (lines.reverse.take (lines.length - (i + 1))).reverse := by
      rw [List.take_reverse, List.reverse_reverse]
      congr 1
      omega
    rw [hdrop, List.any_reverse, any_take_iff (by omega), any_take_iff (by simp)]
    omega
  · rw [List.drop_eq_nil_of_le (by omega)]
    simp
    omega

theorem succ_mem_arms (hclosing : arms lines ≠ [] → startsArm lines (closing lines) = false) (hi : i ∈ arms lines)
    (hcase : startsArm lines (i + 1) = true) : i + 1 ∈ arms lines := by
  have hlast : i + 1 ≠ closing lines := by
    intro heq
    rw [heq, hclosing (List.ne_nil_of_mem hi)] at hcase
    cases hcase
  rw [mem_arms] at hi ⊢
  omega

theorem renderLine_eq (hi : i ∈ arms lines)
    (hlabel : ∀ j, j = i ∨ j = i + 1 → startsArm lines j = true → (label? (lines.getD j [])).isSome) :
    renderLine lines.toArray (closing lines) i = .ok (pieceAt lines i).lines := by
  have hread {j : Nat} (hj : j = i ∨ j = i + 1) (hcase : startsArm lines j = true) :
      label (lines.getD j []) = .ok (labelAt lines j) := by
    obtain ⟨name, hname⟩ := Option.isSome_iff_exists.mp (hlabel j hj hcase)
    rw [label, labelAt, hname]
    rfl
  have hget (j : Nat) : lines.toArray.getD j [] = lines.getD j [] := by simp
  simp only [renderLine, pieceAt, hget]
  by_cases hcase : startsArm lines i = true
  · simp only [if_pos hcase, hread (.inl rfl) hcase]
    by_cases hnext : startsArm lines (i + 1) = true
    · simp only [if_pos hnext, hread (.inr rfl) hnext]
      rfl
    · simp only [if_neg hnext]
      rfl
  · have hends := breakEnds_eq lines.toArray (mem_arms.mp hi).2 (by rw [closing, region_eq]; simp; omega)
    simp only [if_neg hcase, isRemark, isLastBreak, hends]
    -- the patterns of a remark, the break and the answer are independent of each other
    cases isFallThrough (lines.getD i []) <;> cases target? (lines.getD i []) <;> cases isBreak (lines.getD i []) <;>
      cases decides (between lines.toArray i (closing lines)) <;> rfl

theorem extract_eq (h : ∀ i ∈ arms lines, renderLine lines.toArray (closing lines) i = .ok (pieceAt lines i).lines) :
    extract lines = .ok ((arms lines).flatMap fun i => (pieceAt lines i).lines) := by
  have hmap (xs : List Nat) (hxs : xs ⊆ arms lines) :
      xs.mapM (renderLine lines.toArray (closing lines)) = .ok (xs.map fun i => (pieceAt lines i).lines) := by
    induction xs with
    | nil => rfl
    | cons i xs ih =>
      rw [List.cons_subset] at hxs
      rw [List.mapM_cons, h i hxs.1, ih hxs.2]
      rfl
  rw [List.flatMap_def]
  exact congrArg (· >>= fun parts => pure parts.flatten) (hmap (arms lines) (List.Subset.refl _))

theorem filterMap_ite {α β : Type} (p : α → Bool) (f : α → β) (xs : List α) :
    xs.filterMap (fun a => if p a then some (f a) else none) = (xs.filter p).map f := by
  rw [← List.filterMap_filter, List.filterMap_eq_map']

/-- The arms are the lines behind some `switch` and before some `default`. Every label among them is the name of one
function, in the order of the lines. A label that is followed by another one becomes a function that
only calls the function of the next line, and a remark becomes a call. What is copied are all other lines, but for the
breaks that end their arm. -/
theorem extract_function_per_label (lines names : List (List Char))
    (hnames : List.Forall₂ IsLabel (((arms lines).filter (startsArm lines)).map (lines.getD · [])) names)
    (hdistinct : names.Nodup) (hclosing : arms lines ≠ [] → startsArm lines (closing lines) = false) :
    (∀ i, i ∈ arms lines ↔
      (lines.take i).any (contains "switch") = true ∧ (lines.drop (i + 1)).any (contains "default") = true) ∧
    ∃ piece : Nat → Piece,
      extract lines = .ok ((arms lines).flatMap fun i => (piece i).lines) ∧
      ((arms lines).filterMap fun i => (piece i).name?) = names ∧
      ((arms lines).filterMap fun i => (piece i).name?).Nodup ∧
      (∀ i ∈ arms lines, startsArm lines i = true →
        if startsArm lines (i + 1) then
          i + 1 ∈ arms lines ∧ ∃ name next, piece i = .stub name next ∧ (piece (i + 1)).name? = some next ∧ next ∈ names
        else ∃ name, piece i = .head name) ∧
      (∀ i ∈ arms lines, startsArm lines i = false → isRemark lines i = true →
        ∃ target, target? (lines.getD i []) = some target ∧ piece i = .call target) ∧
      ((arms lines).filterMap fun i => (piece i).copied?) = ((arms lines).filter (isCopied lines)).map (lines.getD · []) := by
  have hread : ((arms lines).filter (startsArm lines)).map (fun i => label? (lines.getD i [])) = names.map some := by
    rw [List.forall₂_map_left_iff] at hnames
    rw [← List.forall₂_eq_eq_eq, List.forall₂_map_left_iff, List.forall₂_map_right_iff]
    exact hnames.imp fun _ _ => label?_of_isLabel
  have hlabel : ∀ i ∈ arms lines, startsArm lines i = true → (label? (lines.getD i [])).isSome := by
    intro i hi hcase
    have hmem : label? (lines.getD i []) ∈ names.map some := by
      rw [← hread]
      exact List.mem_map_of_mem (List.mem_filter.mpr ⟨hi, hcase⟩)
    obtain ⟨name, -, hname⟩ := List.mem_map.mp hmem
    exact Option.isSome_of_eq_some hname.symm
  have hdefined : ((arms lines).filterMap fun i => (pieceAt lines i).name?) = names := by
    have hget := congrArg (List.map (·.getD [])) hread
    rw [List.map_map, List.map_map] at hget
    simp only [name?_pieceAt, filterMap_ite]
    exact hget.trans (by simp)
  refine ⟨fun _ => mem_arms_iff, pieceAt lines, ?_, hdefined, hdefined ▸ hdistinct, ?_, ?_, ?_⟩
  · refine extract_eq fun i hi => renderLine_eq hi ?_
    rintro j (rfl | rfl) hcase
    · exact hlabel _ hi hcase
    · exact hlabel _ (succ_mem_arms hclosing hi hcase) hcase
  · intro i hi hcase
    split
    · rename_i hcase'
      have hname := (name?_pieceAt lines (i + 1)).trans (if_pos hcase')
      refine ⟨succ_mem_arms hclosing hi hcase', labelAt lines i, _, by simp only [pieceAt, if_pos hcase, if_pos hcase'], hname, ?_⟩
      rw [← hdefined]
      exact List.mem_filterMap.mpr ⟨i + 1, succ_mem_arms hclosing hi hcase', hname⟩
    · rename_i hcase'
      exact ⟨labelAt lines i, by simp only [pieceAt, if_pos hcase, if_neg hcase']⟩
  · intro i _ hcase hremark
    obtain ⟨target, htarget⟩ := Option.isSome_iff_exists.mp (Bool.and_eq_true_iff.mp hremark).2
    exact ⟨target, htarget, by simp only [pieceAt, hcase, hremark, htarget, Bool.false_eq_true, if_false, if_true, Option.getD_some]⟩
  · simp only [copied?_pieceAt, filterMap_ite]

/-- Two labels in a row, a remark, a break in an arm and one at its end. -/
def program : List (List Char) :=
  ["switch", "case OP_A:", "case OP_B: x = 1;", " /* Fall through to OP_C */", "case OP_C:", "break;", "y = 2;", "break;",
    "default:"].map String.toList

theorem extract_function_per_label_stacked :
    List.Forall₂ IsLabel (((arms program).filter (startsArm program)).map (program.getD · []))
      (["OP_A", "OP_B", "OP_C"].map String.toList) ∧
    startsArm program (closing program) = false ∧
    ∃ piece : Nat → Piece, extract program = .ok ((arms program).flatMap fun i => (piece i).lines) ∧
      ((arms program).filterMap fun i => (piece i).copied?) = ["break;", "y = 2;"].map String.toList := by
  have hnames : List.Forall₂ IsLabel (((arms program).filter (startsArm program)).map (program.getD · []))
      (["OP_A", "OP_B", "OP_C"].map String.toList) := by
    rw [show ((arms program).filter (startsArm program)).map (program.getD · []) =
      ["case OP_A:", "case OP_B: x = 1;", "case OP_C:"].map String.toList by decide +kernel]
    exact .cons ⟨[], by decide, by decide, by decide⟩ (.cons ⟨" x = 1;".toList, by decide, by decide, by decide⟩
      (.cons ⟨[], by decide, by decide, by decide⟩ .nil))
  have hclosing : startsArm program (closing program) = false := by decide +kernel
  obtain ⟨-, piece, hextract, -, -, -, -, hcopied⟩ :=
    extract_function_per_label program _ hnames (by decide +kernel) fun _ => hclosing
  exact ⟨hnames, hclosing, piece, hextract, hcopied.trans (by decide +kernel)⟩

end QueryMachine.Dispatch
