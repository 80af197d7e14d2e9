import Mathlib
import QueryMachine.Proofs.Machines
import QueryMachine.Proofs.Records
import QueryMachine.Step.Column

/-!
Reading the columns of a row. A cursor on a row gives the fields of its record, in whatever order and
however often they are asked for.
-/

namespace QueryMachine

/-- What a register with just this value shows. -/
def Value.view : Value → View
  | .null => .null
  | .int n => .parts none none none (some n) none
  | .real x => .parts none none none none (some x)
  | .text b => .parts (some b) none none none none
  | .blob b => .parts none (some b) none none none

/-- Values that registers can hold. -/
def Value.Regular : Value → Prop
  | .int n => fitsWord n = true
  | .real x => x.isNaN = false
  | _ => True

namespace Cell

theorem data_grow (name n : Nat) (preserve : Bool) (c : Cell) :
    ∃ b, (c.grow name n preserve).data = some b := by
  simp only [grow]
  cases c.own with
  | none => exact ⟨_, rfl⟩
  | some own =>
    simp only
    split <;> exact ⟨_, rfl⟩

theorem data_clearAndResize (name n : Nat) (c : Cell) :
    ∃ b, (c.clearAndResize name n).data = some b := by
  unfold clearAndResize
  split <;> exact data_grow name n false c

theorem own_grow (name n : Nat) (preserve : Bool) (c : Cell) :
    (c.grow name n preserve).own = c.own ∨ (c.grow name n preserve).own = some name := by
  simp only [grow]
  cases c.own with
  | none => exact .inr rfl
  | some own =>
    simp only
    split
    · exact .inr rfl
    · exact .inl rfl

theorem own_clearAndResize (name n : Nat) (c : Cell) :
    (c.clearAndResize name n).own = c.own ∨ (c.clearAndResize name n).own = some name := by
  unfold clearAndResize
  split <;> exact own_grow name n false c

theorem own_setNull (c : Cell) : c.setNull.own = c.own := by
  unfold setNull
  split <;> rfl

theorem view_fill {c : Cell} {b : Buffer} (h : c.data = some b) (bytes : Bytes) (isText term : Bool) :
    ({ c.fill bytes with flags := { str := isText, blob := !isText, term } } : Cell).view =
      (if isText then Value.text bytes else Value.blob bytes).view := by
  cases isText <;>
    simp [Content.view, Content.bytes, Flags.textual, fill, h, Value.view]

variable {f : Field} {v : Value}

theorem view_load (name : Nat) (c : Cell) (hv : f.value.Regular) : (c.load name f).view = f.value.view := by
  unfold load
  generalize (if c.flags.dynamic then c.setNull else c) = c
  simp only
  cases hf : f.value with
  | null => rfl
  | int n =>
    rw [hf] at hv
    simp only [Content.view, Flags.onlyInt, Value.view, Content.int, Flags.textual]
    simp [wordToInt_intToWord_of_fits hv]
  | real x => simp [Content.view, Flags.onlyReal, Value.view, Content.real, Flags.textual]
  | text b =>
    obtain ⟨buffer, hb⟩ := data_clearAndResize name (b.length + 2) c
    exact view_fill hb b true true
  | blob b =>
    obtain ⟨buffer, hb⟩ := data_clearAndResize name (b.length + 2) c
    exact view_fill hb b false true

theorem own_load (name : Nat) (f : Field) (c : Cell) :
    (c.load name f).own = c.own ∨ (c.load name f).own = some name := by
  unfold load
  have hown : (if c.flags.dynamic then c.setNull else c).own = c.own := by
    split
    · exact own_setNull c
    · rfl
  generalize (if c.flags.dynamic then c.setNull else c) = d at hown
  simp only
  cases f.value with
  | null => exact .inl hown
  | int n => exact .inl hown
  | real x => exact .inl hown
  | text b => rw [← hown]; exact own_clearAndResize name (b.length + 2) d
  | blob b => rw [← hown]; exact own_clearAndResize name (b.length + 2) d

theorem view_loadFar (name : Nat) (c : Cell) (hv : f.value.Regular) :
    (c.loadFar name f).view = f.value.view := by
  simp only [loadFar]
  split
  · exact view_load name c hv
  · split
    · exact view_load name _ hv
    · rename_i hbig
      have hblob : Field.value ⟨12 + 2 * Serial.typeLength f.type, f.bytes⟩ = .blob f.bytes := by
        simp [Field.value, Serial.get]
      have hvalue : f.value = if f.type % 2 = 0 then .blob f.bytes else .text f.bytes := by
        simp [Field.value, Serial.get, show 12 ≤ f.type by omega]
      simp only [load, hblob, hvalue]
      obtain ⟨buffer, hb⟩ := data_clearAndResize name (f.bytes.length + 2)
        (if c.flags.dynamic then c.setNull else c)
      by_cases heven : f.type % 2 = 0
      · simp only [heven, if_true]
        exact view_fill hb f.bytes false false
      · simp only [heven, if_false]
        exact view_fill hb f.bytes true false

theorem own_loadFar (name : Nat) (f : Field) (c : Cell) :
    (c.loadFar name f).own = c.own ∨ (c.loadFar name f).own = some name := by
  simp only [loadFar]
  split
  · exact own_load name f c
  · have hfirst := own_load name ⟨12 + 2 * Serial.typeLength f.type, f.bytes⟩ c
    split
    · rcases own_load name f (c.load name ⟨12 + 2 * Serial.typeLength f.type, f.bytes⟩) with h | h
      · rw [h]
        exact hfirst
      · exact .inr h
    · exact hfirst

end Cell

namespace Cursor

open Machine Record

/-- The cursor is on an entry of a tree with this record. -/
def InTree (m : Machine) (record : Bytes) (c : Cursor) : Prop :=
  c.position.isHere = true ∧ c.nullRow = false ∧
    (c.position.entry ((m.treeOf? c).getD default)).record = record

/-- The cursor is on a row with this record. -/
def Stands (m : Machine) (record : Bytes) (c : Cursor) : Prop :=
  match c.source with
  | .register r =>
    let d := m.bank.cellAt r.toNat
    0 ≤ r ∧ d.bytes = record ∧ d.size = record.length
  | .main _ | .own _ _ => c.InTree m record
  | .sorter _ => False

/-- What was read of the row before is right. -/
def Recalls (m : Machine) (fields : List Field) (c : Cursor) : Prop :=
  c.stamp = m.stamp → ∃ r k, c.reader = some r ∧ r.At fields k

variable {m m' : Machine} {fields : List Field} {c : Cursor}

theorem isHere_note (t : Tree) (p : Position) : (p.note t).2.isHere = p.isHere := by
  unfold Position.note
  split <;> rfl

theorem entry_note (t : Tree) (p : Position) : (p.note t).2.entry t = p.entry t := by
  unfold Position.note
  split <;> rfl

/-- The reader that is made for a row of a tree. -/
def treeReader (m : Machine) (c : Cursor) : Reader :=
  let t := (m.treeOf? c).getD default
  let record := (c.position.entry t).record
  Reader.start record record.length (t.localSize record.length)

theorem openReader_tree (hc : ∀ reg, c.source ≠ .register reg) (hrow : c.nullRow = false) :
    Direct.openReader c m =
      if c.stamp = m.stamp then .ok (some (c.reader.getD default, c)) m
      else
        .ok (some (treeReader m c,
          { c with
            reader := some (treeReader m c)
            stamp := m.stamp
            position := (c.position.note ((m.treeOf? c).getD default)).2 })) m := by
  rw [Direct.openReader, bind_of_ok get_run]
  cases hsource : c.source with
  | register reg => exact absurd hsource (hc reg)
  | main root => simp only [hrow]; split <;> rfl
  | own t s => simp only [hrow]; split <;> rfl
  | sorter s => simp only [hrow]; split <;> rfl

theorem InTree.openReader_run (hs : c.InTree m (encode fields)) (hr : c.Recalls m fields)
    (hf : Fits fields) (hc : ∀ reg, c.source ≠ .register reg) :
    ∃ r k d, Direct.openReader c m = .ok (some (r, d)) m ∧ r.At fields k ∧
      d.InTree m (encode fields) ∧ d.source = c.source ∧ d.deferred = c.deferred ∧
      d.stamp = m.stamp := by
  obtain ⟨hhere, hrow, hrecord⟩ := hs
  rw [openReader_tree hc hrow]
  split
  · rename_i hstamp
    obtain ⟨r, k, hreader, hat⟩ := hr hstamp
    exact ⟨r, k, c, by rw [hreader, Option.getD_some], hat, ⟨hhere, hrow, hrecord⟩, rfl, rfl, hstamp⟩
  · refine ⟨_, 0, _, rfl, ?_, ⟨?_, hrow, ?_⟩, rfl, rfl, rfl⟩
    · rw [treeReader, hrecord]
      exact Reader.start_at hf _
    · exact (isHere_note _ _).trans hhere
    · exact (congrArg Entry.record (entry_note _ _)).trans hrecord

theorem Stands.openReader_run (hs : c.Stands m (encode fields)) (hr : c.Recalls m fields)
    (hf : Fits fields) :
    ∃ r k d, Direct.openReader c m = .ok (some (r, d)) m ∧ r.At fields k ∧
      d.Stands m (encode fields) ∧ d.source = c.source ∧ d.deferred = c.deferred ∧
      d.stamp = m.stamp := by
  unfold Stands at hs
  cases hsource : c.source with
  | register reg =>
    simp only [hsource] at hs
    obtain ⟨h0, hbytes, hsize⟩ := hs
    have hslot := lift_of_read (Bank.slot_run (b := m.bank) h0)
    have hcell := lift_of_read (Bank.cell_run m.bank reg.toNat)
    simp only [Direct.openReader, bind_of_ok get_run, hsource, bind_of_ok hslot, bind_of_ok hcell]
    split
    · rename_i hstamp
      obtain ⟨r, k, hreader, hat⟩ := hr hstamp
      refine ⟨_, k, c, rfl, ?_, ?_, hsource, rfl, hstamp⟩
      · rw [hreader, Option.getD_some]
        split
        · exact ⟨hbytes, hat.size, hat.header, hat.types, hat.offsets, hat.place, hat.le⟩
        · exact hat
      · simp only [Stands, hsource]
        exact ⟨h0, hbytes, hsize⟩
    · refine ⟨_, 0, _, rfl, ?_, ⟨h0, hbytes, hsize⟩, rfl, rfl, rfl⟩
      rw [hbytes, hsize]
      exact Reader.start_at hf _
  | main root =>
    simp only [hsource] at hs
    obtain ⟨r, k, d, hrun, hat, hd, hds, hrest⟩ := hs.openReader_run hr hf (by simp [hsource])
    rw [hsource] at hds
    exact ⟨r, k, d, hrun, hat, by simpa only [Stands, hds] using hd, hds, hrest⟩
  | own t s =>
    simp only [hsource] at hs
    obtain ⟨r, k, d, hrun, hat, hd, hds, hrest⟩ := hs.openReader_run hr hf (by simp [hsource])
    rw [hsource] at hds
    exact ⟨r, k, d, hrun, hat, by simpa only [Stands, hds] using hd, hds, hrest⟩
  | sorter s => simp [hsource] at hs

/-- Writing a register leaves the row of the cursor alone. -/
def Spares (m : Machine) (out : Nat) (c : Cursor) : Prop :=
  out < m.bank.cells.size ∧ ∀ reg, c.source = .register reg →
    out ≠ reg.toNat ∧ (m.bank.cellAt out).Apart (m.bank.cellAt reg.toNat) ∧
      ∀ b, (m.bank.cellAt reg.toNat).data = some b → b.name < m.bank.fresh

variable {out : Nat} {b : Bank}

theorem Spares.cellAt_eq (h : c.Spares m out) (hw : m.bank.Writes out b) {reg : Int}
    (hreg : c.source = .register reg) : b.cellAt reg.toNat = m.bank.cellAt reg.toNat :=
  hw.apart _ (h.2 reg hreg).1 (h.2 reg hreg).2.1

theorem Spares.stands (h : c.Spares m out) (hw : m.bank.Writes out b) {record : Bytes}
    (hs : c.Stands m record) : c.Stands (m.withBank b) record := by
  unfold Stands at *
  cases hsource : c.source with
  | register reg =>
    simp only [hsource] at hs ⊢
    rw [bank_withBank, h.cellAt_eq hw hsource]
    exact hs
  | main root =>
    simp only [hsource] at hs ⊢
    exact hs
  | own t s =>
    simp only [hsource] at hs ⊢
    exact hs
  | sorter s => simp [hsource] at hs

theorem Spares.spares (h : c.Spares m out) (hw : m.bank.Writes out b) {next : Nat}
    (hn : c.Spares m next) : c.Spares (m.withBank b) next := by
  refine ⟨by rw [bank_withBank, hw.size]; exact hn.1, fun reg hreg => ?_⟩
  obtain ⟨hne, hapart, hname⟩ := hn.2 reg hreg
  rw [bank_withBank, h.cellAt_eq hw hreg]
  refine ⟨hne, fun shared hd => ?_, fun shared hd => Nat.lt_of_lt_of_le (hname shared hd) hw.fresh⟩
  rcases hw.own next with hown | hown
  · rw [hown]
    exact hapart shared hd
  · rw [hown]
    intro heq
    have := hname shared hd
    have := Option.some.inj heq
    omega

end Cursor

def readColumn (i : Int) (column out : Nat) : MachineM Flow :=
  Direct.column ⟨.column, i, column, out, .none, 0⟩

/-- The cursor is on the record of `fields`, of which any part may have been read, and `outs` are
registers to read it into. -/
def Machine.Reading (m : Machine) (i : Int) (fields : List Field) (outs : List Nat) : Prop :=
  ∃ c, m.Opens i c ∧ c.deferred = none ∧ c.Stands m (Record.encode fields) ∧
    c.Recalls m fields ∧ ∀ out ∈ outs, c.Spares m out

namespace Machine

open Record

variable {m : Machine} {i : Int} {fields : List Field} {outs : List Nat} {c : Cursor}

theorem arrive_run (hopen : m.Opens i c) (hdef : c.deferred = none) {record : Bytes}
    (hs : c.Stands m record) : Direct.arrive i m = .ok true m := by
  simp only [Direct.arrive, bind_of_ok hopen.cursor_run, hdef]
  unfold Cursor.Stands at hs
  have hrestore (hhere : c.position.isHere = true) : restoreCursor i m = .ok true m := by
    simp only [restoreCursor, bind_of_ok hopen.cursor_run, hhere, if_true]
    rfl
  cases hsource : c.source with
  | register reg => simp [Cursor.pseudo?, hsource, pure_run]
  | main root =>
    simp only [hsource] at hs
    simp [Cursor.pseudo?, hsource, hrestore hs.1]
  | own t s =>
    simp only [hsource] at hs
    simp [Cursor.pseudo?, hsource, hrestore hs.1]
  | sorter s => simp [hsource] at hs

/-- What a read writes to its register. -/
def loaded (near : Bool) (field : Option Field) (b : Bank) (out : Nat) : Bank :=
  match field with
  | none => b.withCell out (b.cellAt out).setNull
  | some f =>
    let load := if near then Cell.load else Cell.loadFar
    b.renewed.put out (load b.fresh f (b.cellAt out))

theorem writes_loaded {b : Bank} {out : Nat} (hout : out < b.cells.size) (near : Bool)
    (field : Option Field) : b.Writes out (loaded near field b out) := by
  cases field with
  | none => exact Bank.writes_modifyCell hout (Cell.own_setNull _)
  | some f =>
    cases near with
    | true => exact Bank.writes_modifyCellWith (f := fun name => Cell.load name f) hout (Cell.own_load _ f _)
    | false =>
      exact Bank.writes_modifyCellWith (f := fun name => Cell.loadFar name f) hout (Cell.own_loadFar _ f _)

theorem view_setNull (c : Cell) : c.setNull.view = .null := by
  unfold Cell.setNull
  split <;> rfl

theorem view_loaded {b : Bank} {out : Nat} (hout : out < b.cells.size) (near : Bool)
    (field : Option Field) (hv : ∀ f, field = some f → f.value.Regular) :
    ((loaded near field b out).cellAt out).view = ((field.map Field.value).getD .null).view := by
  cases field with
  | none =>
    rw [loaded, Bank.cellAt_withCell hout, if_pos rfl]
    exact view_setNull _
  | some f =>
    rw [loaded, Bank.cellAt_put (b := b.renewed) hout, if_pos rfl]
    cases near with
    | true => exact Cell.view_load b.fresh _ (hv f rfl)
    | false => exact Cell.view_loadFar b.fresh _ (hv f rfl)

theorem Reading.step (h : m.Reading i fields outs) (hf : Fits fields)
    (hv : ∀ f ∈ fields, f.value.Regular) {out : Nat} (hout : out ∈ outs) (column : Nat) :
    ∃ m', readColumn i column out m = .ok .next m' ∧ m'.Reading i fields outs ∧
      (m'.bank.cellAt out).view = ((fields[column]?.map Field.value).getD .null).view := by
  obtain ⟨c, hopen, hdef, hs, hr, hsp⟩ := h
  obtain ⟨r, k, d, hreader, hat, hd, hsource, hdef', hstamp⟩ := hs.openReader_run hr hf
  obtain ⟨r', k', hadvance, hat', hend⟩ := hat.advance hf column
  have hslot := lift_of_read (m := m) (Bank.slot_run (b := m.bank) (Int.natCast_nonneg out))
  simp only [readColumn, Direct.column, bind_of_ok (arrive_run hopen hdef hs), bind_of_ok hslot,
    bind_of_ok hopen.cursor_run, bind_of_ok hreader, Bool.not_true, Bool.false_eq_true, if_false,
    bind_of_ok (hopen.setCursor_run d), hat.sound hf, Int.toNat_natCast, hadvance,
    bind_of_ok ((hopen.withCursor d).setCursor_run _), hat'.field? hf hend]
  have hspares : ∀ out ∈ outs, Cursor.Spares m out { d with reader := some r' } := by
    intro next hnext
    refine ⟨(hsp next hnext).1, fun reg hreg => (hsp next hnext).2 reg ?_⟩
    rw [← hsource]
    exact hreg
  have hlt := (hsp out hout).1
  have hw := writes_loaded hlt (r'.isNear column) fields[column]?
  refine ⟨((m.withCursor i d).withCursor i { d with reader := some r' }).withBank
    (loaded (r'.isNear column) fields[column]? m.bank out), ?_, ?_, ?_⟩
  · cases hfield : fields[column]? with
    | none => exact bind_of_ok (lift_of_ok (Bank.modifyCell_run m.bank out _))
    | some f =>
      have hshape : Direct.wantsShape ⟨.column, i, column, out, .none, 0⟩ f = false := by
        simp [Direct.wantsShape, Instruction.option]
      simp only [hshape, Bool.false_eq_true, if_false]
      rw [bind_of_ok (lift_of_ok (Bank.modifyCellWith_run _ out _))]
      cases r'.isNear column <;> rfl
  · refine ⟨{ d with reader := some r' }, (hopen.withCursor d).withCursor _, hdef'.trans hdef, ?_,
      fun _ => ⟨r', k', rfl, hat'⟩, fun next hnext => ?_⟩
    · exact (hspares out hout).stands hw hd
    · exact (hspares out hout).spares hw (hspares next hnext)
  · apply view_loaded hlt
    intro f hfield
    exact hv f (List.mem_of_getElem? hfield)

theorem Reading.run (h : m.Reading i fields outs) (hf : Fits fields)
    (hv : ∀ f ∈ fields, f.value.Regular) {reads : List (Nat × Nat)}
    (hreads : ∀ read ∈ reads, read.2 ∈ outs) :
    ∃ m', (reads.forM fun read => discard (readColumn i read.1 read.2)) m = .ok () m' ∧
      m'.Reading i fields outs := by
  induction reads generalizing m with
  | nil => exact ⟨m, rfl, h⟩
  | cons read reads ih =>
    obtain ⟨m₁, hrun, h₁, _⟩ := h.step hf hv (hreads read List.mem_cons_self) read.1
    obtain ⟨m₂, hrun', h₂⟩ := ih h₁ fun next hnext => hreads next (List.mem_cons_of_mem read hnext)
    exact ⟨m₂, (bind_of_ok (discard_of_ok hrun)).trans hrun', h₂⟩

end Machine

end QueryMachine
