import Mathlib
import QueryMachine.Machine.Run
import QueryMachine.Proofs.ClearRules
import QueryMachine.Proofs.Sides

/-!
Every instruction is clear: if it gets through where everything that is known is exact, it does the same without
knowledge. What it leaves behind need not be exact, which is found out when the registers are checked.
-/

namespace QueryMachine

open Bank Terms

/-- Nothing is relied on but that of variables only marks are known. -/
def Terms.anything (d : Dims) : Terms := spread d fun _ _ => True

theorem Terms.creed_anything (d : Dims) (j : Nat) : Fact.Creed (anything d j) := creed_spread creed_any d j

/-- A rule for an instruction: what it relies on has just been checked. -/
def Proper {σ α : Type} [Banked σ] (d : Dims) (x : EStateM Fault σ α) : Prop :=
  Clear d (spread d Fact.Clean) x fun _ => anything d

variable {σ α β : Type} [Banked σ] {d : Dims} {L M : Fact → Cell → Prop}

theorem Clear.proper {x : EStateM Fault σ α} (hx : Clear d (spread d L) x fun _ => spread d M)
    (hL : ∀ f c, f.Clean c → L f c) : Proper d x :=
  hx.mono (spread_mono hL) fun _ => spread_mono fun _ _ _ => trivial

theorem Still.proper {x : EStateM Fault σ α} (hx : Still d (spread d L) x) (hL : ∀ f c, f.Clean c → L f c) :
    Proper d x :=
  Clear.proper hx hL

theorem Still.proper_of_sure {x : EStateM Fault σ α} (hx : Still d (spread d Fact.Sure) x) : Proper d x :=
  hx.proper fun _ _ h => h.toSure

theorem Still.proper_of_marks {x : EStateM Fault σ α} (hx : Still d (spread d Fact.Honest) x) : Proper d x :=
  hx.proper fun _ _ h => h.marks

theorem Clear.proper_of_sure {x : EStateM Fault σ α} (hx : Clear d (spread d Fact.Sure) x fun _ => spread d Fact.Honest) :
    Proper d x :=
  hx.proper fun _ _ h => h.toSure

/-- From here on only marks are relied on. -/
theorem Still.ending {x : EStateM Fault σ α} (hx : Still d (spread d Fact.Honest) x) :
    Clear d (spread d Fact.Sure) x fun _ => spread d Fact.Honest :=
  hx.from_ marks_of_sure

theorem Still.ended {x : EStateM Fault σ α} (hx : Still d (spread d Fact.Sure) x) :
    Clear d (spread d Fact.Sure) x fun _ => spread d Fact.Honest :=
  hx.weaken fun _ => marks_of_sure

namespace Tracked

variable (i : Instruction) (pc : Int)

theorem proper_integer : Proper d (Tracked.integer i) :=
  (still_register_bind fun _ hr => still_setAnyInt hr _ _).proper_of_marks

theorem proper_null : Proper d (Tracked.null i) := by
  refine (Still.proper_of_marks ?_)
  refine still_register_bind fun r hr => (still_setFlags hr _).bind fun _ => Still.bind (.forIn fun k _ _ => ?_) fun _ => .pure _
  refine still_register_bind fun r hr => (still_setNull (slack_marks d) (Dims.lt_size hr)).bind fun _ => ?_
  exact (still_setFlags hr _).bind fun _ => .pure _

theorem proper_real : Proper d (Tracked.real i) := by
  refine Still.proper_of_marks (still_register_bind fun r hr => (still_setFlags hr _).bind fun _ => ?_)
  split
  · exact Clear.check_bind fun hx => still_setConstantReal hr (by simpa using hx)
  · exact .throw _

theorem proper_sCopy : Proper d (Tracked.sCopy i) := by
  refine Still.proper (L := Fact.Movable) ?_ fun _ _ h => h.movable
  exact still_register_bind fun s hs => still_register_bind fun t ht => (Still.check _).bind fun _ =>
    still_shallowCopy ht (Dims.lt_size hs) _

theorem proper_copy : Proper d (Tracked.copy i) := by
  refine Still.proper (L := Fact.Movable) ?_ fun _ _ h => h.movable
  refine Still.bind (.forIn fun k _ _ => ?_) fun _ => .pure _
  exact still_register_bind fun s hs => still_register_bind fun t ht => (still_copyRegister ht hs).bind fun _ => .pure _

theorem still_moveRegisters (n : Nat) (p1 p2 : Int) {s t : Nat} (hs : s < d.reach) (ht : t < d.reach) :
    Still d (spread d Fact.Honest) (Tracked.moveFrom n p1 p2 s t) := by
  induction n generalizing p1 p2 s t with
  | zero => exact .pure _
  | succ n ih =>
    exact (still_moveFrom ht hs).bind fun _ => still_register_bind fun s hs => still_register_bind fun t ht => ih _ _ hs ht

theorem proper_move : Proper d (Tracked.move i) := by
  refine Still.proper_of_marks ((Still.check _).bind fun _ => (Still.check _).bind fun _ => ?_)
  exact still_register_bind fun s hs => still_register_bind fun t ht => still_moveRegisters _ _ _ hs ht

theorem proper_parameter : Proper d (Tracked.parameter i) := by
  refine Still.proper (L := Fact.Movable) ?_ fun _ _ h => h.movable
  exact clear_parameter_bind fun s hs _ => still_register_bind fun t ht => still_shallowCopy ht hs _

theorem proper_collSeq : Proper d (Tracked.collSeq i) := by
  refine Still.proper_of_marks ((Still.check _).bind fun _ => .ite (still_register_bind fun r hr => ?_) (.pure _))
  exact still_setInteger_of (slack_marks d) (Dims.lt_size hr) (still_setAnyInt hr 0 true)

theorem proper_cast : Proper d (Tracked.cast i) := by
  refine Clear.proper_of_sure (Clear.check_bind fun _ => clear_register_bind fun r hr => ?_)
  exact (still_expandBlob (exact_sure d).creed (Dims.lt_size hr)).then_ fun _ => clear_cast hr _

theorem still_affinity : Still d (spread d Fact.Pliable) (Tracked.affinity i) := by
  refine (Still.expect _ _).bind fun letters => (Still.check _).bind fun _ => Still.bind (.forIn fun a _ _ => ?_) fun _ => .pure _
  exact still_register_bind fun r hr => (still_applyAffinity hr _).bind fun _ => .pure _

theorem proper_affinity : Proper d (Tracked.affinity i) := (still_affinity i).proper fun _ _ h => h.toSure.pliable

theorem proper_realAffinity : Proper d (Tracked.realAffinity i) := by
  refine Clear.proper_of_sure (clear_register_bind fun r hr => ?_)
  have hsize := Dims.lt_size hr
  refine (still_marks (exact_sure d).creed hsize).then_ fun f => .ite (fun _ => ?_) fun _ => (Still.pure _).ended
  refine (still_exactInt (exact_sure d) hsize).then_ fun n => Still.ending ?_
  exact (still_setReal (slack_marks d) hsize _).bind fun _ => still_retype (slack_marks d) hsize _

/-! Jumps. -/

theorem proper_returnTo : Proper d (Tracked.returnTo i) := by
  refine Still.proper_of_sure (still_register_bind fun r hr => ?_)
  refine (still_marks (exact_sure d).creed (Dims.lt_size hr)).bind fun f => (Still.check _).bind fun _ => ?_
  refine (still_exactInt (exact_sure d) (Dims.lt_size hr)).bind fun n => Still.bind ?_ fun _ => .pure _
  exact still_setFlags_of hr Fact.creed_sure (Fact.markable_sure _)

theorem proper_initCoroutine : Proper d (Tracked.initCoroutine i) := by
  refine Still.proper_of_marks (still_register_bind fun r hr => ?_)
  refine (still_isDynamic (creed_marks d) (Dims.lt_size hr)).bind fun _ => (Still.check _).bind fun _ => ?_
  exact (still_setAnyInt hr _ _).bind fun _ => (still_setFlags hr _).bind fun _ => .pure _

theorem proper_yield : Proper d (Tracked.yield pc i) := by
  refine Clear.proper_of_sure (clear_register_bind fun r hr => ?_)
  refine (still_isDynamic (exact_sure d).creed (Dims.lt_size hr)).then_ fun _ => Clear.check_bind fun _ => ?_
  refine (still_setFlags_of hr Fact.creed_sure (Fact.markable_sure _)).then_ fun _ => ?_
  refine (still_exactInt (exact_sure d) (Dims.lt_size hr)).then_ fun n => Still.ending ?_
  exact (still_setAnyInt hr _ _).bind fun _ => .pure _

theorem proper_isNull : Proper d (Tracked.isNull i) :=
  (still_register_bind fun _ hr => (still_marks (exact_sure d).creed (Dims.lt_size hr)).bind fun _ => .pure _).proper_of_sure

theorem proper_notNull : Proper d (Tracked.notNull i) :=
  (still_register_bind fun _ hr => (still_marks (exact_sure d).creed (Dims.lt_size hr)).bind fun _ => .pure _).proper_of_sure

theorem proper_condition (negate : Bool) : Proper d (Tracked.condition negate i) := by
  refine Still.proper_of_sure (still_register_bind fun r hr => ?_)
  refine (still_marks (exact_sure d).creed (Dims.lt_size hr)).bind fun _ => .ite (.pure _) ?_
  exact (still_realValue (exact_sure d).reads (Dims.lt_size hr)).bind fun _ => .pure _

theorem proper_ifPos : Proper d (Tracked.ifPos i) :=
  (still_register_bind fun _ hr => (still_exactInt (exact_sure d) (Dims.lt_size hr)).bind fun _ => .pure _).proper_of_sure

theorem proper_ifZero : Proper d (Tracked.ifZero i) := by
  refine Clear.proper_of_sure (clear_register_bind fun r hr => ?_)
  have hsize := Dims.lt_size hr
  have hpeek (b : Bank) (s : Sheet) (hk : b.Keeps s) : ∃ c, isConstantInt r b = .ok c b := ⟨_, hk.isConstantInt_run r⟩
  refine (still_marks (exact_sure d).creed hsize).then_ fun f => Clear.check_bind fun _ => ?_
  refine clear_swap hpeek (fun b s hk => ⟨_, hk.int_run r⟩) ((still_exactInt (exact_sure d) hsize).then_ fun n => ?_)
  have hset : Still d (spread d Fact.Honest) (do setInt r (n + i.p3) (← isConstantInt r)) :=
    clear_setInt_of hsize (sound_of_creed (creed_marks d)) hpeek (fun _ _ _ _ h => h) fun _ c f e h => by
      rw [spread_of_lt hr] at h ⊢
      exact Fact.honest_noteInt c _ h
  have hrest := (hset.bind fun _ => Still.pure (Flow.jumpIf (n + i.p3 == 0) i.p2)).ending
  rwa [bind_assoc] at hrest

/-! Arithmetic. -/

section Arithmetic

variable (op : Arith) {left right out : Nat} {T : Nat → Prop}

theorem still_arithReal {P : Terms} (a b : Number) : Still d P (arithReal op a b) := by
  cases op with
  | add | subtract | multiply | divide => exact .pure _
  | remainder => exact (still_truncate a).bind fun _ => (still_truncate b).bind fun _ => .pure _

variable (hleft : left < d.reach) (hright : right < d.reach) (hout : out < d.reach)

include hout

theorem still_storeReal (x : Double) (keepReal : Bool) : Still d (spread d Fact.Honest) (do
    setReal out (.real x) false
    retype out .onlyReal
    if !keepReal then discard (integerAffinity out)) := by
  have hsize := Dims.lt_size hout
  have hsound := sound_of_creed (creed_marks d)
  have hstored : Sound (Function.update (spread d Fact.Honest) out fun f c => f.Honest c ∧ f.real? = none) :=
    sound_update hsound (Fact.law_honest.creed.and Fact.creed_realless).toTenet out
  have hback : ∀ j f c, Function.update (spread d Fact.Honest) out (fun f c => f.Honest c ∧ f.real? = none) j f c →
      spread d Fact.Honest j f c := by
    refine (Function.forall_update_iff (spread d Fact.Honest) fun j L => ∀ f c, L f c → spread d Fact.Honest j f c).mpr
      ⟨fun f c h => ?_, fun _ _ _ _ h => h⟩
    rw [spread_of_lt hout]
    exact h.1
  refine Clear.bind (Q := fun _ => Function.update (spread d Fact.Honest) out fun f c => f.Honest c ∧ f.real? = none) ?_ fun _ => ?_
  · refine clear_setReal hsize hstored (fun j hj f c h => ?_) fun f c h => ?_
    · rwa [Function.update_of_ne hj]
    · rw [spread_of_lt hout] at h
      rw [Function.update_self]
      exact ⟨h, Fact.real?_dropReal f⟩
  refine Clear.bind (Q := fun _ => Function.update (spread d Fact.Honest) out fun f c => f.Honest c ∧ f.real? = none) ?_ fun _ => ?_
  · refine clear_retype hstored hstored hsize (fun _ _ _ _ h => h) fun f c h _ => ?_
    rw [Function.update_self] at h ⊢
    exact ⟨Fact.honest_noteFlags f c _, h.2⟩
  refine .ite (fun _ => ?_) fun _ => (Clear.pure _).weaken fun _ => hback
  refine (clear_integerAffinity hstored hsound hsize (fun f c h => ?_) hback fun f c h _ _ _ => ?_).bind fun _ => .pure _
  · rw [Function.update_self] at h
    exact Fact.realExact_of_none h.2
  · rwa [spread_of_lt hout]

theorem still_storeInt (n : Int) : Still d (spread d Fact.Honest) (do
    let constant := (← isConstantInt left) && (← isConstantInt right)
    setInt out n constant
    retype out .onlyInt) := by
  have hset : Still d (spread d Fact.Honest) (do
      setInt out n (← (do return (← isConstantInt left) && (← isConstantInt right)))) := by
    refine clear_setInt_of (Dims.lt_size hout) (sound_of_creed (creed_marks d)) (fun b s hk => ?_) (fun _ _ _ _ h => h) ?_
    · exact ⟨_, (bind_of_ok (hk.isConstantInt_run left)).trans (bind_of_ok (hk.isConstantInt_run right))⟩
    · intro _ c f e h
      rw [spread_of_lt hout] at h ⊢
      exact Fact.honest_noteInt c _ h
  have hrest := hset.bind fun _ => still_retype (slack_marks d) (Dims.lt_size hout) .onlyInt
  simpa only [bind_assoc, pure_bind] using hrest

include hleft hright

theorem clear_inReals (keepReal : Bool) :
    Clear d (pledged d T) (arithmetic.inReals op left right out keepReal) fun _ => spread d Fact.Honest := by
  refine (still_realValue (reads_pledged d T) (Dims.lt_size hleft)).then_ fun a => ?_
  refine (still_realValue (reads_pledged d T) (Dims.lt_size hright)).then_ fun b => (still_arithReal op a b).then_ fun x? => ?_
  have hnull := (still_setNull (slack_marks d) (Dims.lt_size hout)).from_ (marks_of_pledged (T := T))
  cases x? with
  | none => exact hnull
  | some x => exact .ite (fun _ => hnull) fun _ => (still_storeReal hout x keepReal).from_ marks_of_pledged

omit hleft hright hout in
theorem proper_arithmetic : Proper d (Tracked.arithmetic op i) := by
  refine Clear.proper_of_sure (Clear.from_ ?_ pledged_of_sure)
  have hmarks {T : Nat → Prop} {r : Nat} (hr : r < d.reach) : Still d (pledged d T) (flags r) :=
    still_marks (creed_pledged d T) (Dims.lt_size hr)
  refine clear_register_bind fun left hleft => (hmarks hleft).then_ fun f => (clear_numericType hleft).bind fun s => ?_
  refine clear_register_bind fun right hright => (hmarks hright).then_ fun g => (clear_numericType hright).bind fun t => ?_
  refine clear_register_bind fun out hout => ?_
  have hnull {T : Nat → Prop} : Clear d (pledged d T) (setNull out) fun _ => spread d Fact.Honest :=
    (still_setNull (slack_marks d) (Dims.lt_size hout)).from_ marks_of_pledged
  refine .ite (fun _ => hnull) fun _ => .ite (fun hints => ?_) fun _ => clear_inReals op hleft hright hout _
  obtain ⟨hs, ht⟩ : s.int = true ∧ t.int = true := by simpa using hints
  refine (still_pledgedInt hleft (.inl (.inr ⟨rfl, hs⟩))).then_ fun a => ?_
  refine (still_pledgedInt hright (.inr ⟨rfl, ht⟩)).then_ fun b => ?_
  rw [pure_bind]
  cases arithInt op a b with
  | none => exact hnull
  | some n =>
    exact .ite (fun _ => (still_storeInt hout n).from_ marks_of_pledged) fun _ =>
      clear_inReals op hleft hright hout true

end Arithmetic

/-! Comparisons. -/

section Comparisons

variable (o : CompareOptions) {r : Nat} (hr : r < d.reach)

theorem still_decide (holds : Bool) : Still d (spread d Fact.Honest) (Tracked.decide o i holds) := by
  refine .ite (still_register_bind fun r hr => ?_) (.pure _)
  exact (still_retype (slack_marks d) (Dims.lt_size hr) _).bind fun _ => (still_setInt (slack_marks d) (Dims.lt_size hr) _).bind fun _ => .pure _

include hr

theorem still_asReal (f : Flags) : Still d (spread d Fact.Sure) (asReal r f) :=
  .ite ((still_exactInt (exact_sure d) (Dims.lt_size hr)).bind fun _ => .pure _)
    ((Still.check _).bind fun _ => still_exactReal (exact_sure d) (Dims.lt_size hr))

theorem still_coerce (f : Flags) : Still d (spread d Fact.Sure) (Tracked.coerce o r f) := by
  have hcreed := (exact_sure d).creed
  have hconvert (rule : Nat → Cell → Cell) : Still d (spread d Fact.Sure) (do
      direct r rule
      return (← flags r, true)) :=
    (still_direct hcreed (Dims.lt_size hr) rule).bind fun _ => (still_marks hcreed (Dims.lt_size hr)).bind fun _ => .pure _
  exact .ite (hconvert _) (.ite (hconvert _) (.pure _))

theorem still_widen (f before : Flags) : Still d (spread d Fact.Sure) (Tracked.widen r f before) := by
  have hcreed := (exact_sure d).creed
  refine .ite ((still_direct hcreed (Dims.lt_size hr) _).bind fun _ => ?_) (.pure _)
  exact (still_marks hcreed (Dims.lt_size hr)).discard.bind fun _ => .pure _

omit hr in
theorem proper_comparison (rel : Relation) : Proper d (Tracked.comparison rel i) := by
  have hexact := exact_sure d
  refine Clear.proper_of_sure (clear_register_bind fun r1 h1 => (still_marks hexact.creed (Dims.lt_size h1)).then_ fun f1 => ?_)
  refine clear_register_bind fun r3 h3 => (still_marks hexact.creed (Dims.lt_size h3)).then_ fun f3 => ?_
  refine .ite (fun _ => .ite (fun _ => ?_) fun _ => .ite (fun _ => ?_) fun _ => ?_) fun _ => .ite (fun _ => .ite (fun _ => ?_) fun _ => ?_) fun _ => ?_
  · exact Clear.check_bind fun _ => Clear.check_bind fun _ => Clear.check_bind fun _ => (still_decide i _ _).ending
  · refine Still.ending (still_register_bind fun r hr => ?_)
    exact (still_retype (slack_marks d) (Dims.lt_size hr) _).bind fun _ => .pure _
  · exact (Still.pure _).ended
  · exact (still_exactInt hexact (Dims.lt_size h3)).then_ fun _ => (still_exactInt hexact (Dims.lt_size h1)).then_ fun _ =>
      (still_decide i _ _).ending
  · exact (still_asReal h1 f1).then_ fun _ => (still_asReal h3 f3).then_ fun _ => (still_decide i _ _).ending
  · refine (still_coerce _ h1 f1).then_ fun _ => (still_coerce _ h3 f3).then_ fun _ => Clear.check_bind fun _ => ?_
    refine (still_widen h1 _ _).then_ fun _ => (still_widen h3 _ _).then_ fun _ => ?_
    refine (still_compare hexact (Dims.lt_size h3) (Dims.lt_size h1) _).then_ fun _ => Still.ending ?_
    refine (still_decide i _ _).bind fun flow => .ite ?_ (.pure _)
    exact (still_setFlags h1 _).bind fun _ => (still_setFlags h3 _).bind fun _ => .pure _

omit hr in
theorem still_compareVectors (k : KeyInfo) (p1 p2 : Int) (n c : Nat) :
    Still d (spread d Fact.Sure) (Tracked.compareVectors k p1 p2 n c) := by
  induction n generalizing c with
  | zero => exact .pure _
  | succ n ih =>
    refine (Still.check _).bind fun _ => still_register_bind fun r1 h1 => still_register_bind fun r2 h2 => ?_
    refine (still_compare (exact_sure d) (Dims.lt_size h1) (Dims.lt_size h2) _).bind fun o => ?_
    cases o with
    | eq => exact ih _
    | lt | gt => exact .pure _

end Comparisons

/-! Records. -/

section Records

theorem reads_pliable (d : Dims) : (spread d Fact.Pliable).Reads :=
  reads_spread Fact.creed_pliable (fun _ _ h => h.legible) d

theorem still_layout (format : Int) (l : Layout) (r : Int) : Still d (spread d Fact.Pliable) (Layout.add format l r) := by
  have hreads := reads_pliable d
  refine still_register_bind fun r hr => (still_isValid hreads.creed (Dims.lt_size hr)).bind fun _ => (Still.check _).bind fun _ => ?_
  refine (still_serialForm hreads (Dims.lt_size hr) format).bind fun form => ?_
  refine (still_marks hreads.creed (Dims.lt_size hr)).bind fun f => .ite (.ite ?_ ?_) (.pure _)
  · exact (still_expandBlob hreads.creed (Dims.lt_size hr)).bind fun _ => .pure _
  · exact (still_cell r).bind fun _ => .pure _

theorem still_contents (fields : List (Int × SerialForm)) : Still d (spread d Fact.Pliable) (contents fields) := by
  induction fields with
  | nil => exact .pure _
  | cons field rest ih =>
    refine still_register_bind fun r hr => ?_
    exact (still_serialBytesOfLength (reads_pliable d) (Dims.lt_size hr) _).bind fun _ => ih.bind fun _ => .pure _

theorem still_putRecord {out : Nat} (hout : out < d.reach) {c : Cell} (hc : c.flags = .onlyBlob) {k : Unit → BankM β}
    (hk : ∀ u, Still d (spread d Fact.Honest) (k u)) :
    Still d (spread d Fact.Honest) (do putCell out c; let u ← setFlags out .onlyBlob; k u) := by
  have hsize := Dims.lt_size hout
  have hsound := sound_of_creed (creed_marks d)
  refine Clear.bind (Q := fun _ => Function.update (spread d Fact.Honest) out fun _ c => c.flags = .onlyBlob) ?_ fun _ => ?_
  · refine clear_putCell (sound_update hsound (tenet_marked _) out) (fun j hj f c h => ?_) fun f e _ => ?_
    · rwa [Function.update_of_ne hj]
    · rwa [Function.update_self]
  · refine (clear_setFlags hsize hsound (fun j hj f c h => ?_) fun f c h => ?_).bind hk
    · rwa [Function.update_of_ne hj] at h
    · rw [Function.update_self] at h
      rw [spread_of_lt hout]
      exact ⟨fun _ => h, Fact.honest_noteFlags f c _⟩

theorem proper_makeRecord (format : Int) : Proper d (Tracked.makeRecord format i) := by
  refine Clear.proper (L := Fact.Pliable) (M := Fact.Honest) ?_ fun _ _ h => h.toSure.pliable
  refine clear_register_bind fun out hout => ?_
  have hsize := Dims.lt_size hout
  have hzeros (zeros : Int) : Still d (spread d Fact.Honest) (do
      if zeros != 0 then
        modifyCell out fun c => { c with payload := Content.withZeros c.payload zeros }
        setFlags out { blob := true, zero := true } : BankM Unit) := by
    refine .ite (Still.bind ?_ fun _ => still_setFlags hout _) (.pure _)
    refine clear_modifyCell hsize (fun _ _ _ _ h => h) fun f c h => ?_
    rw [spread_of_lt hout] at h ⊢
    exact h
  have hrest : Clear d (spread d Fact.Pliable) (do
      let fields := Instruction.span i.p1 i.p2
      let layout ← fields.foldlM (Layout.add format) {}
      let header := Record.headerLength layout.header
      let size := header + layout.data
      grow out size.toNat false
      let types := (layout.forms.map fun f => Varint.encode f.type).flatten
      let contents ← contents (fields.zip layout.forms)
      check (Varint.length header + types.length == header)
      let record := Varint.encode header ++ types ++ contents
      putCell out { (← cell out).fill record with size := size.toNat, flags := .onlyBlob }
      setFlags out .onlyBlob
      if layout.zeros != 0 then
        modifyCell out fun c => { c with payload := Content.withZeros c.payload layout.zeros }
        setFlags out { blob := true, zero := true } : BankM Unit) fun _ => spread d Fact.Honest := by
    refine Still.then_ (.foldlM fun r _ l => still_layout format l r) fun layout => ?_
    refine (still_direct (reads_pliable d).creed hsize _).then_ fun _ => (still_contents _).then_ fun bytes => ?_
    refine Clear.check_bind fun _ => (still_cell out).then_ fun c => Clear.from_ ?_ (spread_mono fun _ _ h => h.marks)
    exact still_putRecord hout rfl fun _ => hzeros layout.zeros
  dsimp only
  split
  · refine Still.then_ (.forIn fun r _ _ => ?_) fun _ => hrest
    exact still_register_bind fun r hr => (still_applyAffinity hr _).bind fun _ => .pure _
  · exact hrest

end Records

/-! Functions. -/

section Functions

variable {args : List Nat} {out : Nat} (hargs : ∀ r ∈ args, r < d.reach) (hout : out < d.reach)

include hout in
theorem still_finalize (a : Aggregate) (ctx : Option Context) : Still d (spread d Fact.Honest) (a.finalize ctx out) := by
  have hsize := Dims.lt_size hout
  have hint (n : Int) : Still d (spread d Fact.Honest) (setInteger out n) := still_setInteger (slack_marks d) hsize n
  have hreal (x : Double) : Still d (spread d Fact.Honest) (setDouble out (.real x)) := still_setDouble (slack_marks d) hsize _
  have htext (b : Bytes) : Still d (spread d Fact.Honest) (setText out b) := still_direct (creed_marks d) hsize _
  unfold Aggregate.finalize
  split <;> first | exact hint _ | exact htext _ | exact .pure _ | exact .throw _ | skip
  · exact .ite (.pure _) (.ite (.throw _) (.ite (hreal _) (hint _)))
  · exact .ite (.pure _) (hreal _)

include hargs in
theorem still_contextStep (ctx : Context) : Still d (spread d Fact.Sure) (ctx.step args) := by
  have hexact := exact_sure d
  have hsum (s : RunningSum) (g : RunningSum → Context) : Still d (spread d Fact.Sure) (do
      return g (← s.step (← Context.single args))) := by
    match args, hargs with
    | [], _ => exact .throw _
    | _ :: _ :: _, _ => exact .throw _
    | [arg], hargs =>
      have harg := Dims.lt_size (hargs arg List.mem_cons_self)
      have hstep : Still d (spread d Fact.Sure) (s.step arg) := by
        refine (still_numericKind hexact.creed harg).bind fun k => .ite ?_ ?_
        · exact (still_intValue hexact.reads harg).bind fun _ => .pure _
        · exact (still_realValue hexact.reads harg).bind fun _ => .pure _
      exact hstep.bind fun _ => .pure _
  cases ctx with
  | count n =>
    cases args with
    | nil => exact .pure _
    | cons arg rest => exact (still_valueKind hexact.creed (Dims.lt_size (hargs arg List.mem_cons_self))).bind fun _ => .pure _
  | sum s => exact hsum s .sum
  | avg s => exact hsum s .avg
  | sumLength total =>
    exact Still.bind (.mapM fun r hr => still_valueBytes hexact.creed (Dims.lt_size (hargs r hr))) fun _ => .pure _
  | joinText parts =>
    refine Still.bind (.mapM fun r hr => ?_) fun _ => .pure _
    refine (still_valueBytes hexact.creed (Dims.lt_size (hargs r hr))).bind fun n => ?_
    refine (still_valueText hexact.creed (Dims.lt_size (hargs r hr))).bind fun text => ?_
    cases text <;> exact .pure _
  | plain => exact .throw _

include hargs hout in
theorem clear_scalar (s : Scalar) (name : String) (arity : Int) :
    Clear d (spread d Fact.Sure) (s.call name arity args out) fun _ => spread d Fact.Honest := by
  have hexact := exact_sure d
  have hsize := Dims.lt_size hout
  cases s with
  | addInts =>
    refine Still.then_ (.foldlM fun r hr t => ?_) fun total => (still_setInteger (slack_marks d) hsize _).ending
    exact (still_intValue hexact.reads (Dims.lt_size (hargs r hr))).bind fun _ => .pure _
  | mean =>
    refine Still.then_ (.foldlM fun r hr t => ?_) fun total => .ite (fun _ => .throw _) fun _ => ?_
    · exact (still_realValue hexact.reads (Dims.lt_size (hargs r hr))).bind fun _ => .pure _
    · exact (still_setDouble (slack_marks d) hsize _).ending
  | types =>
    refine Still.then_ (.mapM fun r hr => ?_) fun letters => (still_direct hexact.creed hsize _).ended
    exact (still_valueKind hexact.creed (Dims.lt_size (hargs r hr))).bind fun _ => .pure _
  | nullify => exact (still_setNull (slack_marks d) hsize).ending
  | fail => exact .throw _

include hargs hout in
theorem clear_call (f : Func) : Clear d (spread d Fact.Sure) (f.call args out) fun _ => spread d Fact.Honest := by
  unfold Func.call
  split
  · exact clear_scalar hargs hout _ _ _
  · exact .throw _

include hout in
theorem still_funcFinalize (f : Func) (ctx : Option Context) : Still d (spread d Fact.Honest) (f.finalize ctx out) := by
  unfold Func.finalize
  split
  · exact still_finalize hout _ _
  · exact .throw _

theorem still_openContext {P : Terms} (f : Func) (ctx : Option Context) : Still d P (f.openContext ctx) := by
  unfold Func.openContext
  split <;> first | exact .pure _ | exact .throw _

end Functions

end Tracked

/-! Rules on cells, and rules for machines. -/

/-- Where nothing is relied on, it does not matter what becomes of the cells. -/
theorem Bank.Shadows.spared {b b' b₁ : Bank} (h : b.Shadows d (anything d) b') (hb : b₁.extent = b.extent)
    (hholder : b₁.holder = b.holder) (hledger : b₁.ledger = b.ledger) :
    b₁.Shadows d (anything d) (b₁.veil b'.holder b'.ledger) := by
  have hsize : b₁.cells.size = b.cells.size := congrArg Extent.size hb
  have hindexed : b₁.indexed = b.indexed := congrArg Extent.indexed hb
  obtain ⟨s, hk, hP⟩ := h.knows
  obtain ⟨s', hk'⟩ := h.blind
  refine ⟨(congrArg Extent.reach hb).trans h.reach, hsize.trans h.size,
    ⟨s, hk.carry hholder hledger hindexed hsize, fun j hj => ?_⟩, ?_, ⟨s', hk'.carry rfl rfl ?_ ?_⟩, h.off, ?_, rfl⟩
  · have hj := hP j hj
    unfold anything spread at hj ⊢
    split
    · trivial
    · rwa [if_neg ‹_›] at hj
  · rw [hholder]
    exact h.on
  · show b₁.indexed = b'.indexed
    rw [hindexed, h.same]
    rfl
  · show b₁.cells.size = b'.cells.size
    rw [hsize, h.same]
    rfl
  · rw [hholder]
    exact h.sides

namespace Machine

theorem still_of_oblivious {x : MachineM α} (hx : Oblivious x) : Still d (anything d) x := by
  intro m m' h a m₁ hrun
  let v : Cover := { own m with holder := m'.bank.holder, ledger := m'.bank.ledger }
  have hself := hx (own m) m
  have hother := hx v m
  rw [hrun] at hself hother
  have hsame : m₁ = m₁.veil (own m) := by
    have hrun' := hrun.symm.trans hself.1
    injection hrun'
  have hm' : m' = m.veil v := h.same.trans (congrArg m.withBank h.shadows.same)
  have hextent : m₁.bank.extent = m.bank.extent := congrArg Prod.fst hother.2
  refine ⟨m₁.veil v, by rw [hm']; exact hother.1, ?_, h.shadows.spared hextent (by rw [hsame]; rfl) (by rw [hsame]; rfl)⟩
  show m₁.veil v = m₁.withBank (m₁.veil v).bank
  rw [hsame]
  rfl

end Machine

theorem Clear.lift {P : Terms} {S : α → Terms} {x : BankM α} (hx : Clear d P x S) : Clear d P (liftM x : MachineM α) S := by
  intro m m' h a m₁ hrun
  obtain ⟨b₁, hb, rfl⟩ := Machine.lift_eq_ok hrun
  obtain ⟨b₁', hb', h₁⟩ := hx m.bank m'.bank ⟨rfl, h.shadows⟩ a b₁ hb
  refine ⟨m'.withBank b₁', Machine.lift_of_ok hb', ?_, h₁.shadows⟩
  rw [h.same]
  rfl

theorem Still.lift {P : Terms} {x : BankM α} (hx : Still d P x) : Still d P (liftM x : MachineM α) := Clear.lift hx

theorem Still.modify {P : Terms} {f : Machine → Machine} (hf : ∀ m b, f (m.withBank b) = (f m).withBank b) :
    Still d P (modify f : MachineM PUnit) := by
  intro m m' h a m₁ hrun
  cases hrun
  have hbank (m : Machine) : (f m).bank = m.bank := by
    have := hf m m.bank
    rw [Machine.withBank_self] at this
    rw [this]
    rfl
  refine ⟨f m', rfl, ?_, ?_⟩
  · show f m' = (f m).withBank (f m').bank
    rw [hbank, ← hf]
    exact congrArg f h.same
  · show (f m).bank.Shadows d P (f m').bank
    rw [hbank, hbank]
    exact h.shadows

/-! The ways in which instructions are put together. -/

theorem Bank.still_register {P : Terms} (r : Int) : Still d P (register r) := by
  have h : Still d P (register r >>= pure) := still_register_bind fun _ _ => .pure _
  rwa [bind_pure] at h

theorem Bank.Keeps.forgetAt_eq {b : Bank} {s : Sheet} (hk : b.Keeps s) (k : Int) : forgetAt k b =
    (match wrapIndex? b.cells.size k with
      | some j => forgetFact j
      | none => throw .outOfRange : BankM Unit) b := by
  rw [forgetAt, bind_of_ok hk.current_run, Sheet.position, hk.width]
  cases wrapIndex? b.cells.size k <;> rfl

theorem Bank.still_forgetAt {P : Terms} (hP : ∀ j, Fact.Creed (P j)) (k : Int) : Still d P (forgetAt k) := by
  refine clear_of fun b b' h a b₁ hrun => ?_
  obtain ⟨s, hk, -⟩ := h.knows
  obtain ⟨s', hk'⟩ := h.blind
  rw [hk.forgetAt_eq, h.size] at hrun
  rw [hk'.forgetAt_eq, h.size']
  cases hw : wrapIndex? d.size k with
  | none =>
    rw [hw] at hrun
    cases hrun
  | some j =>
    rw [hw] at hrun
    obtain ⟨b₁', hrun', h₁⟩ := still_forgetFact hP (wrapIndex?_lt hw) b b' ⟨rfl, h⟩ a b₁ hrun
    exact ⟨b₁', hrun', h₁.shadows⟩

namespace Machine

variable {P : Terms} {S : β → Terms}

/-- Whatever is relied on before it, a rule on cells may be the last. -/
theorem clear_of_oblivious {x : MachineM α} (hx : Oblivious x) :
    Clear d (spread d L) x fun _ => anything d :=
  (still_of_oblivious hx).from_ (spread_mono fun _ _ _ => trivial)

theorem clear_congr_bind {x y : MachineM α} {k : α → MachineM β}
    (hxy : ∀ m : Machine, m.bank.reach = d.reach → m.bank.cells.size = d.size → x m = y m) (hy : Clear d P (y >>= k) S) :
    Clear d P (x >>= k) S := by
  intro m m' h c m₁ hrun
  have hstep {m : Machine} (hreach : m.bank.reach = d.reach) (hsize : m.bank.cells.size = d.size) : (x >>= k) m = (y >>= k) m := by
    show EStateM.bind x k m = EStateM.bind y k m
    rw [EStateM.bind, EStateM.bind, hxy m hreach hsize]
  rw [hstep h.shadows.reach h.shadows.size] at hrun
  rw [hstep h.shadows.reach' h.shadows.size']
  exact hy m m' h c m₁ hrun

theorem clear_register_bind {r : Int} {k : Nat → MachineM β} (hk : ∀ i < d.reach, Clear d P (k i) S) :
    Clear d P ((liftM (register r) : MachineM Nat) >>= k) S := by
  refine clear_congr_bind (y := expect .unknownRegister (wrapIndex? d.reach r)) (fun m hreach _ => ?_)
    (Clear.expect_bind fun i hi => hk i (wrapIndex?_lt hi))
  show onBank (register r) m = _
  simp only [onBank, register, bind_of_ok get_run, hreach]
  cases wrapIndex? d.reach r <;> rfl

theorem clear_parameter_bind {r : Int} {k : Nat → MachineM β} (hk : ∀ i < d.size, d.reach ≤ i → Clear d P (k i) S) :
    Clear d P ((liftM (parameter r) : MachineM Nat) >>= k) S := by
  refine clear_congr_bind (y := do return d.reach + (← expect .unknownVariable (wrapIndex? (d.size - d.reach) r)))
    (fun m hreach hsize => ?_) ?_
  · show onBank (parameter r) m = _
    simp only [onBank, parameter, bind_of_ok get_run, hreach, hsize]
    cases wrapIndex? (d.size - d.reach) r <;> rfl
  · rw [bind_assoc]
    refine Clear.expect_bind fun i hi => ?_
    have hlt := wrapIndex?_lt hi
    rw [pure_bind]
    exact hk (d.reach + i) (by omega) (by omega)

theorem clear_registers_bind {rs : List Int} {k : List Nat → MachineM β} (hk : ∀ args, (∀ r ∈ args, r < d.reach) → Clear d P (k args) S) :
    Clear d P ((rs.mapM fun r => onBank (register r)) >>= k) S := by
  induction rs generalizing k with
  | nil => exact hk [] (by simp)
  | cons r rs ih =>
    rw [List.mapM_cons, bind_assoc]
    refine clear_register_bind fun q hq => ?_
    rw [bind_assoc]
    refine ih fun args hargs => ?_
    rw [pure_bind]
    exact hk (q :: args) (List.forall_mem_cons.mpr ⟨hq, hargs⟩)

end Machine

namespace Clear

variable {P : Terms} {S : α → Terms}

theorem choose {f : Family} {x y : MachineM α} (hx : Clear d P x S) (hy : Clear d P y S) : Clear d P (Machine.choose f x y) S :=
  .gets (fun _ _ _ => rfl) fun _ => .ite (fun _ => hx) fun _ => hy

theorem agreeing {f : Family} {x y : MachineM α} (hx : Clear d P x S) (hy : Clear d P y S) :
    Clear d P (Machine.agreeing f x y) S :=
  .gets (fun _ _ _ => rfl) fun _ => .choose (check_bind fun _ => hx) (check_bind fun _ => hy)

end Clear

namespace Proper

variable {x : MachineM α}

theorem of_oblivious (hx : Oblivious x) : Proper d x := Machine.clear_of_oblivious hx

theorem of_direct {x : BankM α} (hx : Oblivious x) : Proper d (liftM x : MachineM α) :=
  .of_oblivious (hx.lift)

theorem lift {x : BankM α} (hx : Proper d x) : Proper d (liftM x : MachineM α) := Clear.lift hx

theorem pure (a : α) : Proper d (pure a : MachineM α) := .of_oblivious (.pure a)

theorem thenNext {x : MachineM Unit} (hx : Proper d x) : Proper d (Machine.thenNext x) := hx.bind fun _ => .pure _

theorem choose {f : Family} {y : MachineM α} (hx : Proper d x) (hy : Proper d y) : Proper d (Machine.choose f x y) := Clear.choose hx hy

theorem agreeing {f : Family} {y : MachineM α} (hx : Proper d x) (hy : Proper d y) : Proper d (Machine.agreeing f x y) :=
  Clear.agreeing hx hy

theorem mutating {rs : List Int} {x : MachineM Flow} (hx : Proper d x) : Proper d (Machine.mutating rs x) := by
  refine hx.bind fun flow => Still.bind (.forIn fun r _ _ => ?_) fun _ => .pure _
  exact (still_forgetAt (creed_anything d) r).lift.bind fun _ => .pure _

theorem noteOutput {i : Instruction} {x : MachineM Flow} (hx : Proper d x) : Proper d (Tracked.noteOutput i x) := by
  refine hx.bind fun flow => ?_
  cases flow with
  | next =>
    refine Machine.clear_register_bind fun out hout => (still_slot _).lift.then_ fun r => (still_cell r).lift.then_ fun c => ?_
    refine (still_invalidate (creed_anything d) (Dims.lt_size hout)).lift.then_ fun _ => Clear.bind (Clear.lift ?_) fun _ => .pure _
    refine clear_noteFlags (Dims.lt_size hout) (sound_of_creed (creed_anything d)) (fun _ _ _ _ h => h) (fun _ _ h _ => h) ?_
    intro f c _ _
    rw [anything, spread_of_lt hout]
    trivial
  | jump | fail | leave => exact .pure _

end Proper

/-! Machines. -/

namespace Machine

variable {P : Terms}

theorem still_cursor? (k : Int) : Still d P (cursor? k) := .ite (Clear.gets (fun _ _ _ => rfl) fun _ => .pure _) (.pure _)

theorem still_cursor (k : Int) : Still d P (cursor k) := (still_cursor? k).bind fun _ => .expect _ _

theorem still_setCursor (k : Int) (c : Option Cursor) : Still d P (setCursor k c) :=
  .modify fun m b => by split <;> rfl

theorem still_modifyCursor (k : Int) (f : Cursor → Cursor) : Still d P (modifyCursor k f) := by
  refine (still_cursor? k).bind fun c => ?_
  cases c with
  | some c => exact still_setCursor k _
  | none => exact .pure _

theorem still_treeCursor (k : Int) : Still d P (Tracked.treeCursor k) :=
  (still_cursor k).bind fun _ => (Still.check _).bind fun _ => .pure _

theorem still_rowKey (n : Int) : Still d P (Tracked.rowKey n) := .ite (.pure _) (.throw _)

theorem still_treeOf (c : Cursor) : Still d P (treeOf c) := Clear.gets (fun _ _ _ => rfl) fun _ => .pure _

theorem still_restoreCursor (k : Int) : Still d P (restoreCursor k) :=
  (still_cursor k).bind fun _ => .ite (.pure _) ((still_treeOf _).bind fun _ => (still_setCursor _ _).bind fun _ => .pure _)

theorem still_indexRow (k : Int) : Still d P (Step.indexRow k) := by
  refine (still_restoreCursor k).bind fun ok => .ite (.pure _) ((still_cursor k).bind fun c => .ite (.pure _) ?_)
  refine (still_treeOf c).bind fun t => ?_
  split <;> exact .pure _

theorem still_callee (i : Instruction) : Still d P (callee i) := by
  refine (Still.expect _ _).bind fun ref => Clear.gets (fun _ _ _ => rfl) fun m => ?_
  split
  · exact Still.bind (.modify fun _ _ => rfl) fun _ => .pure _
  · exact .throw _

theorem still_context? (r : Nat) : Still d P (context? r) := Clear.gets (fun _ _ _ => rfl) fun _ => .pure _

theorem still_setContext (r : Nat) (c : Option Context) : Still d P (setContext r c) := .modify fun _ _ => rfl

end Machine

theorem Bank.clear_forgetAll_anything {P : Terms} : Clear d P forgetAll fun _ => anything d :=
  clear_forgetAll fun j _ _ h => (creed_anything d j).nothing h

namespace Direct

variable (i : Instruction)

theorem proper_compare : Proper d (Direct.compare i) := by
  unfold Direct.compare
  split
  · refine Clear.ite (fun _ => ?_) fun _ => Proper.pure _
    refine (Proper.of_direct (oblivious_compareVectors _ _ _ _ _)).bind fun _ => ?_
    exact Still.modify fun _ _ => rfl
  · exact Proper.pure _

theorem proper_jump : Proper d (Direct.jump i) := Clear.gets (fun _ _ _ => rfl) fun _ => Proper.pure _

end Direct

namespace Tracked

variable (i : Instruction) (pc : Int)

theorem proper_gosub : Proper d (Tracked.gosub pc i) := by
  refine Still.proper_of_marks (Clear.gets (fun _ _ _ => rfl) fun m => Clear.check_bind fun _ => Machine.clear_register_bind fun r hr => ?_)
  refine (still_isDynamic (creed_marks d) (Dims.lt_size hr)).lift.bind fun _ => (Still.check _).bind fun _ => ?_
  exact (still_setFlags hr _).lift.bind fun _ => (still_setAnyInt hr _ _).lift.bind fun _ => .pure _

theorem proper_endCoroutine : Proper d (Tracked.endCoroutine i) := by
  refine Still.proper_of_sure (Machine.clear_register_bind fun r hr => Clear.gets (fun _ _ _ => rfl) fun m => ?_)
  refine (still_exactInt (exact_sure d) (Dims.lt_size hr)).lift.bind fun n => (Still.expect _ _).bind fun k => ?_
  refine (Still.check _).bind fun _ => Still.bind (Still.lift ?_) fun _ => .pure _
  exact still_setFlags_of hr Fact.creed_sure (Fact.markable_sure _)

theorem proper_mustBeInt : Proper d (Tracked.mustBeInt i) := by
  refine Clear.proper (L := Fact.Honest) (M := fun _ _ => True) ?_ fun _ _ h => h.marks
  refine Machine.clear_register_bind fun r hr => (still_marks (creed_marks d) (Dims.lt_size hr)).lift.then_ fun f => ?_
  refine .ite (fun _ => ?_) fun _ => ?_
  · refine (still_retype (slack_marks d) (Dims.lt_size hr) _).lift.then_ fun _ => .answer (spread_mono fun _ _ _ => trivial)
  · refine (still_invalidate (creed_marks d) (Dims.lt_size hr)).lift.then_ fun _ => ?_
    exact Machine.clear_of_oblivious (Direct.oblivious_mustBeInt i)

theorem proper_compare : Proper d (Tracked.compare i) := by
  refine Still.proper_of_sure (.ite (.throw _) ((Still.check _).bind fun _ => (Still.expect _ _).bind fun k => ?_))
  exact (still_compareVectors _ _ _ _ _).lift.bind fun _ => .modify fun _ _ => rfl

theorem proper_jump : Proper d (Tracked.jump i) := by
  have hjump : Tracked.jump i = (do
      let m ← get
      modify fun m => { m with order := .eq }
      return .jump (target i m.order) : MachineM Flow) := rfl
  rw [hjump]
  refine Clear.gets (fun _ _ _ => rfl) fun m => Clear.from_ (Q := fun _ => anything d) (P := anything d) ?_ (spread_mono fun _ _ _ => trivial)
  exact Still.bind (.modify fun _ _ => rfl) fun _ => .pure _

theorem proper_function : Proper d (Tracked.function pc i) := by
  refine (Machine.still_callee i).then_ fun f => .ite (fun hf => ?_) fun _ => ?_
  · refine Machine.clear_register_bind fun out hout => Machine.clear_registers_bind fun args hargs => ?_
    exact (Clear.proper_of_sure (clear_call hargs hout f)).lift.bind fun _ => .pure _
  · refine Still.then_ (.forIn fun r _ _ => ?_) fun _ => ?_
    · exact (still_forgetAt (creed_spread Fact.creed_clean d) r).lift.bind fun _ => .pure _
    · exact Proper.noteOutput (.of_oblivious (Direct.oblivious_function i pc))

theorem proper_aggStep : Proper d (Tracked.aggStep pc i) := by
  refine (Machine.still_callee i).then_ fun f => .ite (fun hf => ?_) fun _ => ?_
  · refine Still.proper_of_sure (Machine.clear_registers_bind fun args hargs => Machine.clear_register_bind fun out hout => ?_)
    refine (Machine.still_context? out).bind fun ctx => (still_openContext f ctx).lift.bind fun ctx => ?_
    refine (Machine.still_setContext _ _).bind fun _ => (still_contextStep hargs ctx).lift.bind fun ctx => ?_
    exact (Machine.still_setContext _ _).bind fun _ => .pure _
  · exact Clear.bind (Clear.lift clear_forgetAll_anything) fun _ => Machine.still_of_oblivious (Direct.oblivious_aggStep i pc)

theorem proper_aggFinal : Proper d (Tracked.aggFinal i) := by
  refine (Machine.still_callee i).then_ fun f => .ite (fun hf => ?_) fun _ => ?_
  · refine Still.proper_of_marks (Machine.clear_register_bind fun out hout => (Machine.still_context? out).bind fun ctx => ?_)
    refine (still_funcFinalize hout f ctx).lift.bind fun _ => (Machine.still_setContext _ _).bind fun _ => .pure _
  · refine Clear.bind (Clear.lift clear_forgetAll_anything) fun _ => Machine.still_of_oblivious ?_
    exact Direct.oblivious_aggFinal i

theorem proper_sequence : Proper d (Tracked.sequence i) := by
  refine Still.proper_of_marks (Machine.clear_register_bind fun r hr => ?_)
  refine (still_marks (creed_marks d) (Dims.lt_size hr)).lift.bind fun f => (Still.check _).bind fun _ => ?_
  exact (Machine.still_cursor _).bind fun _ => (Machine.still_setCursor _ _).bind fun _ => (still_setAnyInt hr _ _).lift

theorem proper_seekOrdered (b : Bound) : Proper d (Tracked.seekOrdered b i) := by
  have hexact := exact_sure d
  have hending {x : MachineM Flow} (hx : Oblivious x) : Clear d (spread d Fact.Sure) (do
      let flow ← x
      check (0 < i.p2)
      return flow) fun _ => anything d :=
    (Machine.clear_of_oblivious hx).bind fun flow => (Still.check _).bind fun _ => .pure _
  refine Clear.proper (L := Fact.Sure) (M := fun _ _ => True) ?_ fun _ _ h => h.toSure
  refine (Machine.still_cursor _).then_ fun c => Clear.check_bind fun _ => Clear.check_bind fun _ => ?_
  refine (Machine.still_modifyCursor _ _).then_ fun _ => .ite (fun _ => ?_) fun _ => ?_
  · refine Machine.clear_register_bind fun r hr => (still_marks hexact.creed (Dims.lt_size hr)).lift.then_ fun f => ?_
    have hsize := Dims.lt_size hr
    have hkey : Clear d (spread d Fact.Sure) (Machine.trackedSearch b i r f) fun _ => anything d := by
      refine (still_intValue hexact.reads hsize).lift.then_ fun key => .ite (fun _ => ?_) fun _ => ?_
      · exact .answer (spread_mono fun _ _ _ => trivial)
      · have hseek (x : Number) : Clear d (spread d Fact.Sure) (do
            let b := if x.lt (.int key) then b.forLarger else if x.gt (.int key) then b.forSmaller else b
            let flow ← Step.seekTable b (← rowKey key) i
            check (0 < i.p2)
            return flow : MachineM Flow) fun _ => anything d :=
          (Machine.still_rowKey key).then_ fun key => hending (Step.oblivious_seekTable _ _ i)
        exact .ite (fun _ => (Still.pure _).then_ hseek) fun _ => (still_exactReal hexact hsize).lift.then_ hseek
    refine .ite (fun _ => ?_) fun _ => hkey
    exact (still_direct hexact.creed hsize _).lift.then_ fun _ => hkey
  · refine Clear.check_bind fun _ => Machine.clear_register_bind fun r hr => ?_
    refine (still_expandBlob hexact.creed (Dims.lt_size hr)).lift.then_ fun _ => hending (Step.oblivious_seekIndex b i)

theorem proper_notExists : Proper d (Tracked.notExists i) := by
  refine Clear.proper (L := Fact.Sure) (M := fun _ _ => True) ?_ fun _ _ h => h.toSure
  refine Machine.clear_register_bind fun r hr => (Machine.still_cursor _).then_ fun _ => Clear.check_bind fun _ => ?_
  refine (still_exactInt (exact_sure d) (Dims.lt_size hr)).lift.then_ fun n => ?_
  exact Machine.clear_of_oblivious (Step.oblivious_goToRow _ i)

theorem proper_seek : Proper d (Tracked.seek i) := by
  refine Still.proper_of_sure ((Machine.still_treeCursor _).discard.bind fun _ => (Machine.still_modifyCursor _ _).bind fun _ => ?_)
  refine Machine.clear_register_bind fun r hr => (still_intValue (exact_sure d).reads (Dims.lt_size hr)).lift.then_ fun n => ?_
  exact (Machine.still_rowKey _).bind fun _ => Machine.still_modifyCursor _ _

theorem proper_idxRowid : Proper d (Tracked.idxRowid i) := by
  refine Clear.proper (L := Fact.Honest) (M := fun _ _ => True) ?_ fun _ _ h => h.marks
  refine Machine.clear_register_bind fun out hout => (Machine.still_treeCursor _).discard.then_ fun _ => ?_
  refine (Machine.still_indexRow _).then_ fun w => ?_
  rcases w with code | _ | n
  · exact Machine.clear_of_oblivious (Machine.oblivious_abort code)
  · exact (still_setFlags hout _).lift.then_ fun _ => .answer (spread_mono fun _ _ _ => trivial)
  · refine (still_setAnyInt hout n _).lift.then_ fun _ => (still_setFlags hout _).lift.then_ fun _ => ?_
    exact .answer (spread_mono fun _ _ _ => trivial)

end Tracked

namespace Machine

variable {pc : Int} {i : Instruction}

theorem proper_openTable : Proper d (openTable i) := by
  have hdirect : Oblivious (Direct.openTable i) := Direct.oblivious_openTable i
  refine Clear.choose (Clear.check_bind fun _ => Clear.check_bind fun _ => .throw _) (.ite (fun _ => ?_) fun _ => Proper.of_oblivious hdirect)
  exact (still_forgetAt (creed_spread Fact.creed_clean d) _).lift.then_ fun _ => Proper.of_oblivious hdirect

theorem proper_step (hrow : i.op ≠ .resultRow) (hhalt : i.op ≠ .halt) : Proper d (step pc i) := by
  cases hop : i.op <;> simp only [step, hop]
  case resultRow => exact absurd hop hrow
  case halt => exact absurd hop hhalt
  case init | goto | noop | explain | tableLock => exact .pure _
  case gosub => exact .choose (Tracked.proper_gosub i pc) (.of_direct (Direct.oblivious_gosub i pc))
  case returnTo => exact .choose (Tracked.proper_returnTo i).lift (.of_direct (Direct.oblivious_returnTo i))
  case initCoroutine => exact .choose (Tracked.proper_initCoroutine i).lift (.of_direct (Direct.oblivious_initCoroutine i))
  case yield => exact .mutating (.choose (Tracked.proper_yield i pc).lift (.of_direct (Direct.oblivious_yield i pc)))
  case endCoroutine => exact .choose (Tracked.proper_endCoroutine i) (.of_oblivious (Direct.oblivious_endCoroutine i))
  case isNull => exact .choose (Tracked.proper_isNull i).lift (.of_direct (Direct.oblivious_isNull i))
  case notNull => exact .choose (Tracked.proper_notNull i).lift (.of_direct (Direct.oblivious_notNull i))
  case once => exact .choose (.of_oblivious (Tracked.oblivious_once i)) (.of_oblivious (Direct.oblivious_once i))
  case ifTrue | ifNot => exact .choose (Tracked.proper_condition i _).lift (.of_direct (Direct.oblivious_condition i _))
  case ifPos => exact .choose (Tracked.proper_ifPos i).lift (.of_direct (Direct.oblivious_ifPos i))
  case ifZero => exact .choose (Tracked.proper_ifZero i).lift (.of_direct (Direct.oblivious_ifZero i))
  case integer => exact .thenNext (.choose (Tracked.proper_integer i).lift (.pure _))
  case null => exact .thenNext (.choose (Tracked.proper_null i).lift (.pure _))
  case real => exact .thenNext (.choose (Tracked.proper_real i).lift (.of_direct (Direct.oblivious_real i)))
  case sCopy => exact .thenNext (.choose (Tracked.proper_sCopy i).lift (.of_direct (Direct.oblivious_sCopy i)))
  case copy => exact .thenNext (.choose (Tracked.proper_copy i).lift (.of_direct (Direct.oblivious_copy i)))
  case move => exact .thenNext (.choose (Tracked.proper_move i).lift (.of_direct (Direct.oblivious_move i)))
  case parameter =>
    refine .thenNext (.choose (Tracked.proper_parameter i).lift (Clear.bind (Clear.lift clear_forgetAll_anything) fun _ => ?_))
    exact still_of_oblivious (Direct.oblivious_parameter i).lift
  case collSeq => exact .thenNext (.choose (Tracked.proper_collSeq i).lift (.of_direct (Direct.oblivious_collSeq i)))
  case cast => exact .thenNext (.choose (Tracked.proper_cast i).lift (.of_direct (Direct.oblivious_cast i)))
  case affinity => exact .thenNext (.choose (Tracked.proper_affinity i).lift (.of_direct (Direct.oblivious_affinity i)))
  case realAffinity =>
    exact .thenNext (.choose (Tracked.proper_realAffinity i).lift (.of_direct (Direct.oblivious_realAffinity i)))
  case mustBeInt => exact .choose (Tracked.proper_mustBeInt i) (.of_oblivious (Direct.oblivious_mustBeInt i))
  case add | subtract | multiply | divide | remainder =>
    exact .thenNext (.choose (Tracked.proper_arithmetic i _).lift (.of_direct (Direct.oblivious_arithmetic i _)))
  case eq | ne | lt | le | gt | ge =>
    exact .choose (Tracked.proper_comparison i _).lift (.of_direct (Direct.oblivious_comparison i _))
  case compare => exact .thenNext (.agreeing (Tracked.proper_compare i) (Direct.proper_compare i))
  case jump => exact .agreeing (Tracked.proper_jump i) (Direct.proper_jump i)
  case string => exact .mutating (.thenNext (.of_direct (Direct.oblivious_string i _)))
  case string8 =>
    rw [Direct.string8_eq]
    refine .mutating (.thenNext (Clear.bind (Still.modify fun _ _ => rfl) fun _ => ?_))
    exact Proper.of_direct (Direct.oblivious_string i _)
  case blob => exact .thenNext (.of_direct (Direct.oblivious_blob i))
  case concat => exact .mutating (.thenNext (.of_direct (Direct.oblivious_concat i)))
  case makeRecord =>
    refine .thenNext (Clear.gets (fun _ _ _ => rfl) fun m => Proper.choose (Tracked.proper_makeRecord i _).lift ?_)
    exact .of_direct (Direct.oblivious_makeRecord i _)
  case column => exact .noteOutput (.of_oblivious (Direct.oblivious_column i))
  case function =>
    refine .choose (Tracked.proper_function i pc) (.noteOutput (.of_oblivious ?_))
    exact Direct.oblivious_function i pc
  case aggStep => exact .choose (Tracked.proper_aggStep i pc) (.of_oblivious (Direct.oblivious_aggStep i pc))
  case aggFinal => exact .choose (Tracked.proper_aggFinal i) (.of_oblivious (Direct.oblivious_aggFinal i))
  case openRead | openWrite => exact proper_openTable
  case openEphemeral | openAutoindex => exact .thenNext (.of_oblivious (Direct.oblivious_openEphemeral i))
  case openPseudo => exact .thenNext (.of_oblivious (Direct.oblivious_openPseudo i))
  case sorterOpen => exact .thenNext (.of_oblivious (Direct.oblivious_sorterOpen i))
  case close => exact .thenNext (.of_oblivious (Direct.oblivious_close i))
  case rewind | sorterSort | sort => exact .of_oblivious (Direct.oblivious_rewind i)
  case next => exact .choose (.of_oblivious (Tracked.oblivious_next i)) (.of_oblivious (Direct.oblivious_next i))
  case nextIfOpen => exact .choose (.of_oblivious (Tracked.oblivious_nextIfOpen i)) (.of_oblivious (Direct.oblivious_nextIfOpen i))
  case nullRow => exact .thenNext (.of_oblivious (Direct.oblivious_nullRow i))
  case rowid => exact .mutating (.of_oblivious (Direct.oblivious_rowid i))
  case sequence =>
    refine .mutating (.thenNext (.choose (Tracked.proper_sequence i) (.of_oblivious ?_)))
    exact Direct.oblivious_sequence i
  case seekLT | seekLE | seekGE | seekGT =>
    exact .mutating (.choose (Tracked.proper_seekOrdered i _) (.of_oblivious (Direct.oblivious_seekOrdered i _)))
  case idxLE | idxGT | idxLT | idxGE =>
    exact .mutating (.choose (.of_oblivious (Tracked.oblivious_indexCompare i _)) (.of_oblivious (Step.oblivious_indexCompare _ i)))
  case noConflict | notFound | found =>
    exact .mutating (.of_oblivious (Direct.oblivious_lookup i _))
  case notExists => exact .choose (Tracked.proper_notExists i) (.of_oblivious (Direct.oblivious_notExists i))
  case seek => exact .thenNext (.choose (Tracked.proper_seek i) (.of_oblivious (Direct.oblivious_seek i)))
  case idxRowid => exact .choose (Tracked.proper_idxRowid i) (.of_oblivious (Direct.oblivious_idxRowid i))
  case sorterInsert | idxInsert => exact .mutating (.of_oblivious (Direct.oblivious_idxInsert i))
  case insert => exact .of_oblivious (Direct.oblivious_insertKey i)
  case insertInt => exact .of_oblivious (Direct.oblivious_insertInt i)
  case delete => exact .of_oblivious (Direct.oblivious_delete i)
  case newRowid => exact .of_oblivious (Direct.oblivious_newRowid i)
  case rowKey | rowData => exact .mutating (.thenNext (.of_oblivious (Direct.oblivious_rowData i)))
  case createTable | createIndex => exact .thenNext (.of_oblivious (Direct.oblivious_create i _))
  case clear => exact .of_oblivious (Direct.oblivious_clear i)
  case sorterData => exact .mutating (.thenNext (.of_oblivious (Direct.oblivious_sorterData i)))
  case sorterNext => exact .of_oblivious (Direct.oblivious_sorterNext i)
  case rowSetAdd => exact .thenNext (.of_direct (Direct.oblivious_rowSetAdd i))
  case rowSetRead => exact .of_direct (Direct.oblivious_rowSetRead i)
  case rowSetTest => exact .of_direct (Direct.oblivious_rowSetTest i)
  case transaction => exact .of_oblivious (Direct.oblivious_transaction i)
  case readCookie => exact .thenNext (.of_oblivious (Direct.oblivious_readCookie i))
  case setCookie => exact .thenNext (.of_oblivious (Direct.oblivious_setCookie i))
  case dropTable => exact .thenNext (.of_oblivious (Direct.oblivious_dropTable i))
  case parseSchema => exact .of_oblivious (Direct.oblivious_parseSchema i)
  all_goals exact .throw _

end Machine

/-! The instructions that end a run leave the registers so that they can be read by their marks. -/

/-- The cell is a number of the same kind, with the same payload. -/
structure Cell.Weighs (c e : Cell) : Prop where
  int : e.flags.int = c.flags.int
  real : e.flags.real = c.flags.real
  payload : e.payload = c.payload

namespace Cell

theorem Weighs.trans {c e f : Cell} (h : c.Weighs e) (h' : e.Weighs f) : c.Weighs f :=
  ⟨h'.int.trans h.int, h'.real.trans h.real, h'.payload.trans h.payload⟩

theorem weighs_grow (c : Cell) (name n : Nat) (keep : Bool) : c.Weighs (c.grow name n keep) := by
  unfold Cell.grow
  cases c.own with
  | none => exact ⟨rfl, rfl, rfl⟩
  | some own => dsimp only; split <;> exact ⟨rfl, rfl, rfl⟩

theorem weighs_addTerminator (name : Nat) (c : Cell) : c.Weighs (c.addTerminator name) :=
  let h := c.weighs_grow name (c.size + 2) true
  ⟨h.int, h.real, h.payload⟩

theorem weighs_expandBlob (name : Nat) (c : Cell) : c.Weighs (c.expandBlob name) := by
  unfold Cell.expandBlob
  split
  · have h := c.weighs_grow name (max 1 (c.size + c.zeros.toNat)) true
    exact ⟨h.int, h.real, h.payload⟩
  · exact ⟨rfl, rfl, rfl⟩

theorem weighs_makeWriteable (name : Nat) (c : Cell) : c.Weighs (c.makeWriteable name) := by
  unfold Cell.makeWriteable
  dsimp only
  split
  · exact (weighs_expandBlob name c).trans (weighs_addTerminator name _)
  · exact weighs_expandBlob name c

theorem weighs_nulTerminate (name : Nat) (c : Cell) : c.Weighs (c.nulTerminate name) := by
  unfold Cell.nulTerminate
  split
  · exact weighs_addTerminator name c
  · exact ⟨rfl, rfl, rfl⟩

end Cell

theorem Fact.Legible.weighs {f : Fact} {c e : Cell} (h : f.Legible c) (hw : c.Weighs e) : f.Legible e := by
  have hint : e.int = c.int := congrArg wordToInt hw.payload
  have hreal : e.real = c.real := congrArg Double.mk hw.payload
  refine ⟨fun hmark n hn => ?_, fun hmark x hx => ?_⟩
  · rw [hint]
    exact h.int (hw.int ▸ hmark) n hn
  · rw [hreal]
    exact h.real (hw.real ▸ hmark) x hx

/-- What can be relied on between two calls. -/
abbrev Terms.legible (d : Dims) : Terms := spread d Fact.Legible

theorem Terms.legible_of_sure (j : Nat) (f : Fact) (c : Cell) (h : spread d Fact.Sure j f c) : legible d j f c :=
  spread_mono (fun _ _ h => h.legible) j f c h

theorem Bank.still_modifyCellWith {r : Nat} {g : Nat → Cell → Cell} (hg : ∀ (n : Nat) (c : Cell), c.Weighs (g n c)) :
    Still d (legible d) (modifyCellWith r g) := by
  have hsound := sound_spread Fact.creed_legible d
  refine clear_of fun b b' h a b₁ hrun => ?_
  rw [modifyCellWith_run] at hrun
  cases hrun
  refine ⟨_, modifyCellWith_run b' r g, ?_⟩
  rw [h.cellAt, show b'.fresh = b.fresh by rw [h.same]; rfl]
  refine h.renewed.put _ (fun j => (hsound j).parts) (fun _ _ _ _ h => h) fun f hf => ?_
  unfold legible spread at hf ⊢
  split
  · rw [if_pos ‹_›] at hf
    exact hf.weighs (hg _ _)
  · rwa [if_neg ‹_›] at hf

namespace Machine

variable (pc : Int) (i : Instruction)

theorem still_renewStamp {P : Terms} : Still d P Step.renewStamp := .modify fun _ _ => rfl

theorem still_suspend {P : Terms} : Still d P (Step.suspend pc) := Still.bind (.modify fun _ _ => rfl) fun _ => .pure _

theorem still_tracked_resultRow : Still d (spread d Fact.Sure) (Tracked.resultRow pc i) := by
  have hcreed := creed_spread Fact.creed_sure d
  refine Clear.gets (fun _ _ _ => rfl) fun m => Clear.check_bind fun _ => still_renewStamp.bind fun _ => ?_
  refine Still.bind (.modify fun _ _ => rfl) fun _ => (still_register _).lift.discard.bind fun _ => ?_
  refine Still.bind (.modify fun _ _ => rfl) fun _ => Still.bind (.forIn fun k _ _ => ?_) fun _ => still_suspend pc
  refine clear_register_bind fun r hr => (still_isValid hcreed (Dims.lt_size hr)).lift.bind fun _ => (Still.check _).bind fun _ => ?_
  have hterm : Still d (spread d Fact.Sure) (do nulTerminate r; pure (ForInStep.yield PUnit.unit) : MachineM _) :=
    (still_nulTerminate hcreed (Dims.lt_size hr)).lift.bind fun _ => .pure _
  refine (still_marks hcreed (Dims.lt_size hr)).lift.bind fun f => .ite ?_ hterm
  exact (still_makeWriteable hr Fact.creed_sure fun _ _ h => h.sure).lift.bind fun _ => hterm

theorem still_direct_resultRow : Still d (legible d) (Direct.resultRow pc i) := by
  refine still_renewStamp.bind fun _ => Still.bind (.modify fun _ _ => rfl) fun _ => ?_
  refine Still.bind (.forIn fun k _ _ => (still_slot _).lift.bind fun r => ?_) fun _ => still_suspend pc
  have hterm : Still d (legible d) (do modifyCellWith r Cell.nulTerminate; pure (ForInStep.yield PUnit.unit) : MachineM _) :=
    (still_modifyCellWith Cell.weighs_nulTerminate).lift.bind fun _ => .pure _
  refine (still_cell r).lift.bind fun c => .ite ?_ hterm
  exact (still_modifyCellWith Cell.weighs_makeWriteable).lift.bind fun _ => hterm

/-- What is known of a register that is retired says nothing about a number. -/
theorem still_halt (undo : Bool) : Still d (legible d) (Machine.halt undo) := by
  intro m m' h a m₁ hrun
  cases hrun
  obtain ⟨s, hk, hP⟩ := h.shadows.knows
  obtain ⟨s', hk'⟩ := h.shadows.blind
  refine ⟨_, rfl, ?_, h.shadows.reach, ?_, ⟨s, hk.carry rfl rfl rfl Array.size_mapIdx, fun j hj => ?_⟩, h.shadows.on,
    ⟨s', hk'.carry rfl rfl rfl Array.size_mapIdx⟩, h.shadows.off, h.shadows.sides, ?_⟩
  · rw [h.same, h.shadows.same]
    rfl
  · exact Array.size_mapIdx.trans h.shadows.size
  · have hlegible := hP j hj
    have hcell : (m.bank.cells.mapIdx fun i c => if 1 ≤ i && i < m.bank.reach then retire c else c).getD j {} =
        if 1 ≤ j && j < m.bank.reach then retire (m.bank.cellAt j) else m.bank.cellAt j := by
      have hlt : j < m.bank.cells.size := h.shadows.size ▸ hj
      rw [cellAt, Array.getD_eq_getD_getElem?, Array.getD_eq_getD_getElem?, Array.getElem?_mapIdx, Array.getElem?_eq_getElem hlt]
      rfl
    show legible d j _ ((m.bank.cells.mapIdx _).getD j {})
    rw [hcell]
    split
    · rename_i hj
      have hlt : j < d.reach := by
        rw [← h.shadows.reach]
        simp only [Bool.and_eq_true, decide_eq_true_eq] at hj
        exact hj.2
      rw [legible, spread_of_lt hlt]
      exact ⟨fun hint => absurd (show Flags.onlyUndefined.int = true from hint) (by decide),
        fun hreal => absurd (show Flags.onlyUndefined.real = true from hreal) (by decide)⟩
    · exact hlegible
  · rw [h.same, h.shadows.same]
    rfl

theorem clear_resultRow : Clear d (spread d Fact.Sure) (choose .resultRow (Tracked.resultRow pc i) (Direct.resultRow pc i)) fun _ => legible d :=
  .choose ((still_tracked_resultRow pc i).weaken fun _ => legible_of_sure) ((still_direct_resultRow pc i).from_ legible_of_sure)

theorem clear_halt : Clear d (spread d Fact.Sure) (Step.halt pc i) fun _ => legible d := by
  refine Clear.from_ (P := legible d) (Q := fun _ => legible d) ?_ legible_of_sure
  exact Still.bind (.modify fun _ _ => rfl) fun _ => (still_halt _).bind fun _ => .pure _

/-- What can be relied on after an instruction. -/
def outcome (d : Dims) : Flow → Terms
  | .leave _ => legible d
  | _ => anything d

theorem clear_step : Clear d (spread d Fact.Clean) (step pc i) (outcome d) := by
  have hending {x : MachineM Flow} (hx : Clear d (spread d Fact.Sure) x fun _ => legible d) :
      Clear d (spread d Fact.Clean) x (outcome d) := by
    refine hx.mono (spread_mono fun _ _ h => h.toSure) fun flow j f c h => ?_
    cases flow with
    | leave code => exact h
    | next | jump _ | fail _ => exact spread_mono (fun _ _ _ => trivial) j f c h
  by_cases hrow : i.op = .resultRow
  · simp only [step, hrow]
    exact hending (clear_resultRow pc i)
  by_cases hhalt : i.op = .halt
  · simp only [step, hhalt]
    exact hending (clear_halt pc i)
  · intro m m' h flow m₁ hrun
    obtain ⟨m₁', hrun', h₁⟩ := proper_step hrow hhalt m m' h flow m₁ hrun
    have htame := tame_step hrow hhalt m flow m₁ hrun
    refine ⟨m₁', hrun', ?_⟩
    cases flow with
    | leave code => exact htame.elim
    | next | jump _ | fail _ => exact h₁

end Machine

end QueryMachine
