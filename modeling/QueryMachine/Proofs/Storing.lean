import Mathlib
import QueryMachine.Bank.Register
import QueryMachine.Proofs.Accesses
import QueryMachine.Proofs.Columns

/-!
Storing numbers in registers. If what is known about the marks of a register is true of it, then a number is
stored without failure, and what is known about them afterwards is true again.
-/

namespace QueryMachine

/-- A cell that holds an integer and nothing else. -/
def View.ofInt (n : Int) : View := .parts none none none (some n) none

/-- A cell that holds a double and nothing else; what is not a number is no value. -/
def View.ofDouble (x : Double) : View := if x.isNaN then .null else .parts none none none none (some x)

namespace Bank

variable {α β : Type} {b : Bank} {i : Nat}

/-- What is known about the marks of a cell of the bank is true of it. -/
def Settled (i : Nat) (b : Bank) : Prop :=
  i < b.cells.size ∧ ∃ s, b.Keeps s ∧ ∀ g, (s.fact i).flags? = some g → g = (b.cellAt i).flags

/-- The computation ends with an answer and a cell as `Q` says, and what is known about its marks is true. -/
def Ends (i : Nat) (x : BankM α) (b : Bank) (Q : α → Cell → Prop) : Prop :=
  ∃ v b', x b = .ok v b' ∧ b'.Settled i ∧ Q v (b'.cellAt i)

theorem Ends.bind {x : BankM α} {k : α → BankM β} {P : α → Cell → Prop} {Q : β → Cell → Prop}
    (hx : Ends i x b P) (hk : ∀ v b', b'.Settled i → P v (b'.cellAt i) → Ends i (k v) b' Q) :
    Ends i (x >>= k) b Q := by
  obtain ⟨v, b', hrun, hb', hp⟩ := hx
  obtain ⟨w, b'', hrun', hend⟩ := hk v b' hb' hp
  exact ⟨w, b'', (bind_of_ok hrun).trans hrun', hend⟩

theorem Settled.pure (h : b.Settled i) {v : α} {Q : α → Cell → Prop} (hq : Q v (b.cellAt i)) :
    Ends i (pure v) b Q := ⟨v, b, rfl, h, hq⟩

theorem settled_of_notes {s : Sheet} {c : Cell} {g : Fact → Fact} {b' : Bank}
    (hk : b.Keeps s) (hi : i < b.cells.size) (hn : (b.withCell i c).Notes (s.facts.modify i g) b')
    (hg : ∀ f, (g (s.fact i)).flags? = some f → f = c.flags) : b'.Settled i ∧ b'.cellAt i = c := by
  obtain ⟨t, l, rfl, hk', hs⟩ := hn
  have hcell : ((b.withCell i c).knowing t l).cellAt i = c := cellAt_withCell_self hi _
  refine ⟨⟨by simpa [knowing] using hi, t, hk', fun f hf => ?_⟩, hcell⟩
  have hfact := (hk.withCell i c).fact_noted (by simpa using hi) hs i
  rw [hfact.flags?_eq] at hf
  rw [hcell]
  simp only [true_and, holder_withCell] at hf
  split at hf
  · exact hg f hf
  · rename_i hc
    rw [hk.fact_unused (by simpa using hc)] at hf
    cases hf

theorem Settled.setFlags (h : b.Settled i) (f : Flags) :
    Ends i (setFlags i f) b fun _ c => c = (b.cellAt i).withFlags f := by
  obtain ⟨hi, s, hk, hflags⟩ := h
  obtain ⟨b', hrun, hn⟩ := hk.noteFlags_run (g := f) hi hflags fun h : true = false => Bool.noConfusion h
  exact ⟨(), b', hrun, settled_of_notes hk hi hn fun g hg => (Option.some.inj hg).symm⟩

theorem Settled.setInt (h : b.Settled i) {n : Int} (hn : fitsWord n = true) :
    Ends i (setInt i n false) b fun _ c => c = (b.cellAt i).withPayload (intToWord n) := by
  obtain ⟨hi, s, hk, hflags⟩ := h
  obtain ⟨b', hrun, hn⟩ := hk.setInt_run i hn false
  exact ⟨(), b', hrun, settled_of_notes hk hi hn hflags⟩

theorem Settled.setReal (h : b.Settled i) (x : Double) :
    Ends i (setReal i (.real x) false) b fun _ c => c = (b.cellAt i).withPayload x.bits := by
  obtain ⟨hi, s, hk, hflags⟩ := h
  obtain ⟨b', hrun, hn⟩ := hk.setReal_run i (x := .real x) fun h : false = true => by cases h
  exact ⟨(), b', hrun, settled_of_notes hk hi hn hflags⟩

theorem Settled.flags (h : b.Settled i) :
    Ends i (flags i) b fun v c => v = (b.cellAt i).flags ∧ c = b.cellAt i := by
  obtain ⟨hi, s, hk, hflags⟩ := h
  obtain ⟨b', hrun, hn⟩ := hk.flags_run hflags
  nth_rewrite 1 [← withCell_cellAt b i] at hn
  obtain ⟨hb', hcell⟩ := settled_of_notes hk hi hn fun g hg => (Option.some.inj hg).symm
  exact ⟨_, b', hrun, hb', rfl, hcell⟩

theorem Settled.modifyCell (h : b.Settled i) {f : Cell → Cell}
    (hf : (f (b.cellAt i)).flags = (b.cellAt i).flags) :
    Ends i (modifyCell i f) b fun _ c => c = f (b.cellAt i) := by
  obtain ⟨hi, s, hk, hflags⟩ := h
  have hcell := cellAt_withCell_self hi (f (b.cellAt i))
  refine ⟨(), _, Bank.modifyCell_run b i f, ⟨by simpa using hi, s, hk.withCell i _, fun g hg => ?_⟩, hcell⟩
  rw [hcell, hf]
  exact hflags g hg

theorem Settled.isDynamic (h : b.Settled i) :
    Ends i (isDynamic i) b fun v c => v = (b.cellAt i).flags.dynamic ∧ c = b.cellAt i := by
  refine h.flags.bind fun f b' hb' hf => hb'.pure ?_
  rw [hf.1]
  exact ⟨rfl, hf.2⟩

theorem Settled.clearExtern (h : b.Settled i) :
    Ends i (clearExtern i) b fun _ c => c = (b.cellAt i).clearExtern := by
  obtain ⟨hi, s, hk, -⟩ := h
  obtain ⟨b', hrun, hn⟩ := (hk.withCell i (b.cellAt i).clearExtern).invalidate_run i
  refine ⟨(), b', (bind_of_ok (Bank.modifyCell_run b i _)).trans hrun, settled_of_notes hk hi hn fun g hg => ?_⟩
  rw [Fact.flags?, Fact.forget_known] at hg
  cases hg

theorem Settled.releaseExtern (h : b.Settled i) : Ends i (releaseExtern i) b fun _ _ => True := by
  refine h.isDynamic.bind fun v b' hb' _ => ?_
  cases v with
  | true =>
    obtain ⟨v, b'', hrun, hb'', -⟩ := hb'.clearExtern
    exact ⟨v, b'', hrun, hb'', trivial⟩
  | false => exact hb'.pure trivial

theorem Settled.clearStorage (h : b.Settled i) : Ends i (clearStorage i) b fun _ _ => True := by
  refine h.releaseExtern.bind fun _ b' hb' _ => ?_
  obtain ⟨v, b'', hrun, hb'', -⟩ := hb'.modifyCell
    (f := fun c => { c with own := if c.room != 0 then none else c.own, data := none }) rfl
  exact ⟨v, b'', hrun, hb'', trivial⟩

theorem Settled.release (h : b.Settled i) : Ends i (release i) b fun _ _ => True := by
  refine h.releaseExtern.bind fun _ b₁ hb₁ _ => hb₁.isDynamic.bind fun v b₂ hb₂ _ => ?_
  have hcell : Ends i (cell i) b₂ fun _ _ => True := ⟨_, b₂, rfl, hb₂, trivial⟩
  refine hcell.bind fun c b₃ hb₃ _ => ?_
  split
  · exact hb₃.clearStorage
  · exact hb₃.pure trivial

theorem Settled.setInteger (h : b.Settled i) {n : Int} (hn : fitsWord n = true) :
    Ends i (setInteger i n) b fun _ c => c.view = .ofInt n := by
  have hset {b' : Bank} (hb' : b'.Settled i) (hf : (b'.cellAt i).flags = .onlyInt) :
      Ends i (Bank.setInt i n false) b' fun _ c => c.view = .ofInt n := by
    obtain ⟨v, b'', hrun, hb'', hc⟩ := hb'.setInt hn
    refine ⟨v, b'', hrun, hb'', ?_⟩
    rw [hc]
    have hflags : ((b'.cellAt i).withPayload (intToWord n)).flags = .onlyInt := hf
    have hint : ((b'.cellAt i).withPayload (intToWord n)).int = n := wordToInt_intToWord_of_fits hn
    simp only [Content.view, hflags, hint]
    rfl
  refine h.flags.bind fun f b₁ hb₁ hf => ?_
  obtain ⟨rfl, hc⟩ := hf
  by_cases hsame : (b.cellAt i).flags = .onlyInt
  · simp only [hsame, bne_self_eq_false, Bool.false_eq_true, if_false]
    exact hset hb₁ (by rw [hc, hsame])
  · have hne : ((b.cellAt i).flags != .onlyInt) = true := by simpa using hsame
    simp only [hne, if_true]
    refine hb₁.release.bind fun _ b₂ hb₂ _ => ?_
    refine (hb₂.setFlags .onlyInt).bind fun _ b₃ hb₃ hc₃ => hset hb₃ ?_
    rw [hc₃]
    rfl

theorem Settled.direct (h : b.Settled i) (rule : Nat → Cell → Cell) :
    Ends i (direct i rule) b fun _ c => ∃ name, c = rule name (b.cellAt i) := by
  obtain ⟨hi, s, hk, -⟩ := h
  obtain ⟨b', hrun, t, l, rfl, hk', hs⟩ := hk.invalidate_run i
  have hknown : (t.fact i).known = .nothing := by
    have hfact := hk.fact_noted hi hs i
    rw [hfact.known]
    split
    · exact Fact.forget_known _
    · rename_i hc
      rw [hk.fact_unused (by simpa using hc)]
  have hlt : i < (b.knowing t l).renewed.cells.size := hi
  have hcell : ((b.knowing t l).renewed.put i (rule b.fresh (b.cellAt i))).cellAt i = rule b.fresh (b.cellAt i) := by
    rw [cellAt_put hlt, if_pos rfl]
  refine ⟨(), _, (bind_of_ok hrun).trans (modifyCellWith_run _ i rule), ⟨by rwa [size_put], t,
    hk'.renewed.put i _, fun g hg => ?_⟩, b.fresh, hcell⟩
  rw [Fact.flags?, hknown] at hg
  cases hg

theorem Settled.setNull (h : b.Settled i) : Ends i (setNull i) b fun _ c => c.view = .null := by
  refine h.flags.bind fun f b₁ hb₁ _ => hb₁.flags.bind fun g b₂ hb₂ _ => ?_
  split
  · obtain ⟨v, b₃, hrun, hb₃, name, hc⟩ := hb₂.direct fun _ => Cell.setNull
    exact ⟨v, b₃, hrun, hb₃, hc ▸ Machine.view_setNull _⟩
  · refine hb₂.flags.bind fun f b₃ hb₃ _ => ?_
    obtain ⟨v, b₄, hrun, hb₄, hc⟩ := hb₃.setFlags (f.retype .onlyNull)
    exact ⟨v, b₄, hrun, hb₄, hc ▸ rfl⟩

theorem Settled.setDouble (h : b.Settled i) (x : Double) :
    Ends i (setDouble i (.real x)) b fun _ c => c.view = .ofDouble x := by
  have hset {b' : Bank} (hx : x.isNaN = false) (hb' : b'.Settled i) (hf : (b'.cellAt i).flags = .onlyReal) :
      Ends i (Bank.setReal i (.real x) false) b' fun _ c => c.view = .ofDouble x := by
    obtain ⟨v, b'', hrun, hb'', hc⟩ := hb'.setReal x
    refine ⟨v, b'', hrun, hb'', ?_⟩
    have hflags : ((b'.cellAt i).withPayload x.bits).flags = .onlyReal := hf
    have hreal : ((b'.cellAt i).withPayload x.bits).real = x := rfl
    rw [hc]
    simp only [Content.view, hflags, hreal, View.ofDouble, hx]
    rfl
  cases hx : x.isNaN with
  | true =>
    have hnan : (Number.real x).isNaN = true := hx
    simp only [Bank.setDouble, hnan, if_true, View.ofDouble, hx]
    exact h.setNull
  | false =>
    have hnan : (Number.real x).isNaN = false := hx
    simp only [Bank.setDouble, hnan, Bool.false_eq_true, if_false]
    refine h.flags.bind fun f b₁ hb₁ hf => ?_
    obtain ⟨rfl, hc⟩ := hf
    by_cases hsame : (b.cellAt i).flags = .onlyReal
    · simp only [hsame, bne_self_eq_false, Bool.false_eq_true, if_false]
      exact hset hx hb₁ (by rw [hc, hsame])
    · have hne : ((b.cellAt i).flags != .onlyReal) = true := by simpa using hsame
      simp only [hne, if_true]
      refine hb₁.release.bind fun _ b₂ hb₂ _ => ?_
      refine (hb₂.setFlags .onlyReal).bind fun _ b₃ hb₃ hc₃ => hset hx hb₃ ?_
      rw [hc₃]
      rfl

end Bank

end QueryMachine
