import Mathlib
import QueryMachine.Proofs.Columns
import QueryMachine.Proofs.Normalising

/-!
Registers that are made into a record come back out of its columns.
-/

namespace QueryMachine

theorem Cell.Storable.recordable {c : Cell} (h : c.Storable) : c.Recordable where
  defined := h.defined
  counted hz := by
    rw [h.counted] at hz
    cases hz
  string hk := by
    obtain ⟨-, hbytes, hsize⟩ := h.string hk
    exact ⟨hbytes, by rwa [h.counted]⟩

namespace Bank

variable {b : Bank} {t : Sheet} {known : Nat → Bool}

theorem Trusts.reads (h : b.Trusts t known) : b.Reads known :=
  ⟨t, h.keeps, h.reach, fun r hr => ⟨Fact.True.fair (h.holds r hr), h.real r⟩⟩

theorem Reads.layout_of_storable (h : b.Reads known) {regs : List Int}
    (hregs : ∀ r ∈ regs, 0 ≤ r ∧ r < b.reach ∧ (b.cellAt r.toNat).Storable) (format : Int) (l : Tracked.Layout) :
    ∃ b', regs.foldlM (Tracked.Layout.add format) l b =
        .ok ((regs.map fun r => b.cellAt r.toNat).foldl (Tracked.Layout.lay format) l) b' ∧
      b'.Reads known ∧ b'.reach = b.reach ∧ ∀ r, b'.cellAt r = b.cellAt r := by
  induction regs generalizing b l with
  | nil => exact ⟨b, rfl, h, rfl, fun _ => rfl⟩
  | cons r regs ih =>
    obtain ⟨h0, hr, hc⟩ := hregs r List.mem_cons_self
    obtain ⟨b₁, hadd, h₁, hbecame⟩ := h.add_run h0 hr hc.recordable format l
    have hsame (j : Nat) : b₁.cellAt j = b.cellAt j := by
      rw [hbecame.cellAt, Cell.expandBlob_of_not_zero hc.counted, ite_self, put_of_string ⟨rfl, rfl⟩, withCell_cellAt]
    obtain ⟨b', hrun, h', hreach, hsame'⟩ := ih h₁
      (fun j hj => by rw [hbecame.reach, hsame]; exact hregs j (List.mem_cons_of_mem r hj)) (l.lay format (b.cellAt r.toNat))
    simp only [hsame] at hrun
    refine ⟨b', ?_, h', hreach.trans hbecame.reach, fun j => (hsame' j).trans (hsame j)⟩
    rw [List.foldlM_cons, bind_of_ok hadd, hrun]
    rfl

/-- An instruction that makes a record of registers, without affinities, in a register that is none of
them and in whose buffer none of their strings lies. -/
structure Records (b : Bank) (i : Instruction) : Prop where
  affinity : i.p4 = .none
  count : i.p2 ≤ 2147483647
  out : 0 ≤ i.p3 ∧ i.p3 < b.reach
  fields : ∀ r ∈ Instruction.span i.p1 i.p2, (0 ≤ r ∧ r < b.reach ∧ r ≠ i.p3) ∧
    (b.cellAt r.toNat).Storable ∧ (b.cellAt i.p3.toNat).Apart (b.cellAt r.toNat)

/-- The values of registers, with a zero for a zero of which something is known. -/
def Writings (b : Bank) (known : Nat → Bool) (regs : List Int) (values : List Value) : Prop :=
  List.Forall₂ (fun i w => (b.cellAt i.toNat).value.Kept (known i.toNat) w) regs values

theorem Writings.mem {known : Nat → Bool} {regs : List Int} {values : List Value}
    (h : b.Writings known regs values) {w : Value} (hw : w ∈ values) :
    ∃ i ∈ regs, (b.cellAt i.toNat).value.Kept (known i.toNat) w := by
  induction h with
  | nil => simp at hw
  | cons hkept _ ih =>
    rcases List.mem_cons.mp hw with rfl | hw
    · exact ⟨_, List.mem_cons_self, hkept⟩
    · obtain ⟨i, hi, hkept⟩ := ih hw
      exact ⟨i, List.mem_cons_of_mem _ hi, hkept⟩

theorem Writings.eq_values {known : Nat → Bool} {regs : List Int} {values : List Value}
    (h : b.Writings known regs values) (hknown : ∀ r, known r = false) :
    values = regs.map fun i => (b.cellAt i.toNat).value := by
  induction h with
  | nil => rfl
  | cons hkept _ ih =>
    rcases hkept with rfl | ⟨x, y, hx, rfl, rfl | ⟨hk, _⟩⟩
    · rw [List.map_cons, ih]
    · rw [List.map_cons, ih, hx]
    · rw [hknown] at hk
      cases hk

theorem Trusts.makeRecord_run (h : b.Trusts t known) {i : Instruction} (hi : b.Records i)
    (format : Int) :
    ∃ values b', b.Writings known (Instruction.span i.p1 i.p2) values ∧
      Tracked.makeRecord format i b = .ok () b' ∧
      let record := Record.encode (values.map (Record.fieldFor format))
      (b'.cellAt i.p3.toNat).bytes = record ∧ (b'.cellAt i.p3.toNat).size = record.length ∧
        (b'.cellAt i.p3.toNat).flags = .onlyBlob := by
  obtain ⟨haffinity, hcount, hout, hfields⟩ := hi
  have hnodup := Instruction.nodup_span i.p1 i.p2
  generalize hregs : Instruction.span i.p1 i.p2 = regs at hfields hnodup ⊢
  obtain ⟨b₁, hlayout, h₁, hreach, hsame⟩ := h.reads.layout_of_storable
    (fun r hr => ⟨(hfields r hr).1.1, (hfields r hr).1.2.1, (hfields r hr).2.1⟩) format {}
  have hf₁ : b₁.Fields (fun r => ∃ j ∈ regs, j.toNat = r) regs :=
    ⟨hnodup, fun r hr => hreach ▸ ⟨(hfields r hr).1.1, (hfields r hr).1.2.1⟩, fun r hr => ⟨r, hr, rfl⟩,
      fun r hr => by rw [hsame]; exact (hfields r hr).2.1.recordable⟩
  have hcells : ∀ c ∈ regs.map fun r => b.cellAt r.toNat, c.Storable := by
    intro c hc
    obtain ⟨r, hr, rfl⟩ := List.mem_map.mp hc
    exact (hfields r hr).2.1
  have hmissing := Tracked.Layout.missing_of_not_zero format {} fun c hc => (hcells c hc).counted
  obtain ⟨hsources, hzeros⟩ := Tracked.Layout.sources_of_missing rfl (fun c hc => (hcells c hc).recordable) hmissing
  have hvalue : Tracked.Layout.sources format {} (regs.map fun r => b.cellAt r.toNat) =
      regs.map fun r => (b.cellAt r.toNat).value := by
    rw [hsources, List.map_map]
    exact List.map_congr_left fun r hr => Cell.fullValue_of_not_zero (hfields r hr).2.1.counted
  have hraw : (regs.map fun r => (b₁.cellAt r.toNat).rawValue) =
      Tracked.Layout.sources format {} (regs.map fun r => b.cellAt r.toNat) := by
    rw [hvalue]
    exact List.map_congr_left fun r hr => by rw [hsame, Cell.rawValue_of_not_zero (hfields r hr).2.1.counted]
  obtain ⟨values, b', hvalues, hrun, hstores, hsize⟩ := h₁.makeRecord_of_layout hout hregs hf₁
    (fun hS => by obtain ⟨r, hr, heq⟩ := hS; have := (hfields r hr).1; omega)
    (fun r hS => by obtain ⟨j, hj, rfl⟩ := hS; rw [hsame, hsame]; exact (hfields j hj).2.2) (by rw [haffinity]; rfl) hcount format
    (fun c hc => (hcells c hc).recordable) rfl hlayout hreach hraw
  rw [hvalue, written_map_iff] at hvalues
  rw [hmissing, Int.mul_zero, Int.sub_zero] at hsize
  rw [hzeros, hsize, Int.toNat_natCast] at hstores
  refine ⟨values, b', hvalues, hrun, ?_, hstores.size, hstores.flags⟩
  obtain ⟨buffer, hdata, hbytes⟩ := Option.map_eq_some_iff.mp hstores.data
  rw [Content.bytes, hdata, hstores.size, ← hbytes]
  exact List.take_length

/-- An integer, a negative zero and a text, and a register for their record. -/
def threeFields : Array Cell :=
  #[.null, .ofInt (-300), .ofReal ⟨0x8000000000000000⟩, .ofBytes .onlyStr 0 [104, 105], .null]

def threeValues : List Value := [.int (-300), .real ⟨0x8000000000000000⟩, .text [104, 105]]

/-- A machine with a cursor on a record in a register. -/
def rowMachine (record : Bytes) : Machine where
  bank := ofCells #[.null, .ofBytes .onlyBlob 0 record] false true 1
  program := #[]
  status := { useFlagCache := false }
  database := default
  cursors := #[some { source := .register 1 }]
  once := #[]
  registers := 2
  width := 0

end Bank

end QueryMachine
