import Mathlib
import QueryMachine.Proofs.Oblivious

/-!
Built-in functions and aggregates work on the cells.
-/

namespace QueryMachine

open Bank

namespace Argument

@[grind ←]
theorem oblivious_kind (r : Nat) : Oblivious (kind r) := (oblivious_cell r).bind fun _ => .pure _

@[grind ←]
theorem oblivious_text? (r : Nat) : Oblivious (text? r) :=
  (oblivious_cell r).bind fun _ => oblivious_freshName.bind fun _ => (oblivious_putCell r _).bind fun _ => .pure _

@[grind ←]
theorem oblivious_size (r : Nat) : Oblivious (size r) :=
  (oblivious_cell r).bind fun _ => oblivious_freshName.bind fun _ => (oblivious_putCell r _).bind fun _ => .pure _

@[grind ←]
theorem oblivious_sized? (r : Nat) : Oblivious (sized? r) :=
  (oblivious_text? r).bind fun _ => (oblivious_size r).bind fun _ => .pure _

@[grind ←]
theorem oblivious_blob? (r : Nat) : Oblivious (blob? r) := by
  refine (oblivious_cell r).bind fun _ => .ite ?_ (oblivious_sized? r)
  exact (oblivious_modifyCellWith r _).bind fun _ => (oblivious_cell r).bind fun _ => .pure _

@[grind ←]
theorem oblivious_int (r : Nat) : Oblivious (int r) := (oblivious_cell r).bind fun _ => .pure _

@[grind ←]
theorem oblivious_half (r : Nat) : Oblivious (half r) := (oblivious_int r).bind fun _ => .pure _

@[grind ←]
theorem oblivious_real (r : Nat) : Oblivious (real r) := (oblivious_cell r).bind fun _ => .pure _

end Argument

namespace Format

@[grind ←]
theorem oblivious_takeInt (args : List Nat) : Oblivious (takeInt args) := by
  cases args with
  | nil => exact .pure _
  | cons r _ => exact (Argument.oblivious_int r).bind fun _ => .pure _

@[grind ←]
theorem oblivious_takeReal (args : List Nat) : Oblivious (takeReal args) := by
  cases args with
  | nil => exact .pure _
  | cons r _ => exact (Argument.oblivious_real r).bind fun _ => .pure _

@[grind ←]
theorem oblivious_takeText (args : List Nat) : Oblivious (takeText args) := by
  cases args with
  | nil => exact .pure _
  | cons r _ => exact (Argument.oblivious_text? r).bind fun _ => .pure _

@[grind ←]
theorem oblivious_takeCount (c : Option Count) (args : List Nat) : Oblivious (takeCount c args) := by
  grind [takeCount]

@[grind ←]
theorem oblivious_writeField (f : Field) (args : List Nat) (d : Draft) : Oblivious (writeField f args d) := by
  refine (oblivious_takeCount _ args).bind fun width => (oblivious_takeCount _ width.2).bind fun precision => ?_
  grind

theorem oblivious_writePieces (pieces : List Piece) (args : List Nat) (d : Draft) :
    Oblivious (writePieces pieces args d) := by
  induction pieces generalizing args d with
  | nil => exact .pure d
  | cons p rest ih =>
    cases p with
    | literal b => exact ih args _
    | field f =>
      refine (oblivious_writeField f args d).bind fun a => ?_
      grind

theorem oblivious_write (format : Bytes) (args : List Nat) : Oblivious (write format args) :=
  (oblivious_writePieces _ _ _).bind fun _ => .pure _

end Format

namespace Builtin

@[grind ←]
theorem oblivious_trimArgs (left right : Bool) (args : List Nat) : Oblivious (trimArgs left right args) := by
  rcases args with _ | ⟨r, more⟩
  · exact .pure _
  refine (Argument.oblivious_sized? r).bind fun w => ?_
  cases w <;> cases more <;> grind

@[grind ←]
theorem oblivious_extremeFrom (greatest : Bool) (coll : Option Collation) (best : Nat)
    (args : List Nat) : Oblivious (extremeFrom greatest coll best args) := by
  induction args generalizing best with
  | nil => grind [extremeFrom]
  | cons r rest ih => grind [extremeFrom]

@[grind ←]
theorem oblivious_positionArgs (r s : Nat) : Oblivious (positionArgs r s) := by
  grind [positionArgs]

@[grind ←]
theorem oblivious_count (more : List Nat) : Oblivious (sliceArgs.count more) := by
  cases more <;> grind [sliceArgs.count]

@[grind ←]
theorem oblivious_sliceArgs (r s : Nat) (more : List Nat) : Oblivious (sliceArgs r s more) := by
  refine (Argument.oblivious_kind s).bind fun k => ?_
  split
  · exact .pure _
  cases more with
  | nil =>
    refine (Argument.oblivious_kind r).bind fun _ => (Argument.oblivious_half s).bind fun start => ?_
    grind
  | cons t rest =>
    refine (Argument.oblivious_kind t).bind fun k => ?_
    split
    · exact .pure _
    · refine (Argument.oblivious_kind r).bind fun _ => (Argument.oblivious_half s).bind fun start => ?_
      grind

@[grind ←]
theorem oblivious_matchArgs (style : Pattern.Style) (args : List Nat) : Oblivious (matchArgs style args) := by
  rcases args with _ | ⟨p, _ | ⟨t, more⟩⟩
  · exact .pure _
  · exact .pure _
  refine (Argument.oblivious_text? p).bind fun pattern => (Argument.oblivious_text? t).bind fun text =>
    (Argument.oblivious_size p).bind fun n => ?_
  split
  · exact .pure _
  rcases more with _ | ⟨e, rest⟩
  · grind
  · refine (Argument.oblivious_text? e).bind fun w => ?_
    grind

@[grind ←]
theorem oblivious_absArg (r : Nat) : Oblivious (absArg r) := by grind [absArg]

theorem oblivious_roundTo (r : Nat) (places : Option Nat) : Oblivious (do
    match places with
    | none => return Outcome.nothing
    | some n =>
      if (← Argument.kind r) = .null then return .nothing
      else return .real (roundPlaces n (← Argument.real r))) := by
  cases places <;> grind

@[grind ←]
theorem oblivious_roundArgs (r : Nat) (more : List Nat) : Oblivious (roundArgs r more) := by
  cases more with
  | nil => exact oblivious_roundTo r (some 0)
  | cons s rest =>
    refine (Argument.oblivious_kind s).bind fun k => ?_
    split
    · exact oblivious_roundTo r none
    · exact (Argument.oblivious_half s).bind fun n => oblivious_roundTo r (some (min n 30).toNat)

@[grind ←]
theorem oblivious_lengthArg (r : Nat) : Oblivious (lengthArg r) := by grind [lengthArg]

@[grind ←]
theorem oblivious_quoteArg (r : Nat) : Oblivious (quoteArg r) := by grind [quoteArg]

@[grind ←]
theorem oblivious_replaceArgs (r s t : Nat) : Oblivious (replaceArgs r s t) := by
  refine (Argument.oblivious_sized? r).bind fun w => ?_
  rcases w with _ | b
  · exact .pure _
  refine (Argument.oblivious_text? s).bind fun w => ?_
  cases w <;> grind

@[grind ←]
theorem oblivious_formatArgs (args : List Nat) : Oblivious (formatArgs args) := by
  rcases args with _ | ⟨r, rest⟩
  · exact .pure _
  refine (Argument.oblivious_text? r).bind fun w => ?_
  cases w with
  | none => exact .pure _
  | some b => exact (Format.oblivious_write _ _).bind fun _ => .pure _

theorem oblivious_shifts (args : List Nat) (start : Option Moment) :
    Oblivious (args.foldlM (fun m r => do
      match m with
      | none => return none
      | some m => return (← Argument.text? r).bind fun b => m.shift? b.untilZero) start) := by
  refine .foldlM fun q _ m => ?_
  cases m with
  | none => exact .pure _
  | some m => exact (Argument.oblivious_text? q).bind fun _ => .pure _

@[grind ←]
theorem oblivious_momentOf? (now : Int) (args : List Nat) : Oblivious (momentOf? now args) := by
  rcases args with _ | ⟨r, rest⟩
  · exact .pure _
  refine (Argument.oblivious_kind r).bind fun k => ?_
  split
  · exact (Argument.oblivious_real r).bind fun _ => oblivious_shifts rest _
  · exact (Argument.oblivious_real r).bind fun _ => oblivious_shifts rest _
  · exact (Argument.oblivious_text? r).bind fun _ => oblivious_shifts rest _

@[grind ←]
theorem oblivious_patternArgs (now : Int) (args : List Nat) : Oblivious (patternArgs now args) := by
  rcases args with _ | ⟨r, rest⟩
  · exact .pure _
  refine (Argument.oblivious_text? r).bind fun w => ?_
  cases w with
  | none => exact .pure _
  | some b => exact (oblivious_momentOf? now rest).bind fun _ => .pure _

@[grind ←]
theorem oblivious_renameArgs (f : Bytes → Option Bytes → Option Bytes) (r s : Nat) : Oblivious (renameArgs f r s) := by
  grind [renameArgs]

@[grind ←]
theorem oblivious_renameParentArgs (r s t : Nat) : Oblivious (renameParentArgs r s t) := by
  grind [renameParentArgs]

@[grind ←]
theorem oblivious_encodeArgs (args : List Nat) : Oblivious (encodeArgs args) :=
  (Oblivious.mapM fun r _ => Argument.oblivious_int r).bind fun _ => .pure _

theorem oblivious_call (f : Builtin) (around : Surroundings) (args : List Nat) : Oblivious (f.call around args) := by
  unfold call
  split <;> grind

end Builtin

namespace Fold

theorem oblivious_keep (r : Nat) (a : Accumulator) : Oblivious (keep r a) := oblivious_modifyCell r _

theorem oblivious_addTo (sum : RunningSum) (r : Nat) : Oblivious (addTo sum r) := by
  refine (oblivious_cell r).bind fun c => (oblivious_setCell r _).bind fun _ => ?_
  split <;> exact .pure _

theorem oblivious_stepExtreme (greatest : Bool) (coll : Option Collation) (r : Nat) (a : Accumulator) :
    Oblivious (stepExtreme greatest coll r a) := by
  refine (oblivious_cell r).bind fun c => ?_
  split
  · exact .pure _
  · refine .ite ?_ (.pure _)
    exact oblivious_freshName.bind fun _ => .pure _
  · exact .pure _
  · exact oblivious_freshName.bind fun _ => .pure _

theorem oblivious_stepJoin (r : Nat) (args : List Nat) (a : Accumulator) : Oblivious (stepJoin r args a) := by
  have hseparator : Oblivious (separator args) := by
    cases args with
    | nil => exact .pure _
    | cons s rest => exact (Argument.oblivious_sized? s).bind fun _ => .pure _
  unfold stepJoin
  split
  · exact hseparator.bind fun _ => (Argument.oblivious_sized? r).bind fun _ => .pure _
  · exact (Argument.oblivious_sized? r).bind fun _ => .pure _

theorem oblivious_step (f : Fold) (coll : Option Collation) (args : List Nat) (out : Nat) :
    Oblivious (f.step coll args out) := by
  refine (oblivious_modifyCell out _).bind fun _ => ?_
  split
  · rename_i r more
    refine (Argument.oblivious_kind r).bind fun k => .ite (.pure _) ?_
    refine (oblivious_modifyCellWith out _).bind fun _ => (oblivious_cell out).bind fun c => ?_
    exact (oblivious_stepJoin r more _).bind fun a => (oblivious_keep out a).bind fun _ => .pure _
  · refine (oblivious_modifyCellWith out _).bind fun _ => (oblivious_cell out).bind fun c => ?_
    dsimp only
    generalize (kept? c).getD .blank = a
    split
    · exact (oblivious_keep out _).bind fun _ => .pure _
    · exact (Argument.oblivious_kind _).bind fun _ => (oblivious_keep out _).bind fun _ => .pure _
    · exact (oblivious_stepExtreme _ _ _ _).bind fun p => (oblivious_keep out _).bind fun _ => .pure _
    · exact (oblivious_addTo _ _).bind fun _ => (oblivious_keep out _).bind fun _ => .pure _
    · exact .pure _

end Fold

end QueryMachine
