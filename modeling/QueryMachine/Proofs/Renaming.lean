import Mathlib
import QueryMachine.Proofs.Twins

/-!
Banks that are the same but for the names of their buffers. Rules that take a new name more often than
they need one leave such banks behind.
-/

namespace QueryMachine

namespace Cell

/-- Two cells that differ in the names of their buffers only. -/
structure Renamed (ρ : Naming) (c c' : Cell) : Prop where
  flags : c'.flags = c.flags
  payload : c'.payload = c.payload
  size : c'.size = c.size
  encoding : c'.encoding = c.encoding
  room : c'.room = c.room
  attachment : c'.attachment = c.attachment
  own : Option.Rel ρ c.own c'.own
  data : Option.Rel (fun b b' => ρ b.name b'.name ∧ b'.bytes = b.bytes) c.data c'.data

namespace Renamed

variable {ρ σ : Naming} {c c' d d' : Cell} {n n' : Nat}

theorem mono (h : c.Renamed ρ c') (hρ : ∀ x x', ρ x x' → σ x x') : c.Renamed σ c' where
  flags := h.flags
  payload := h.payload
  size := h.size
  encoding := h.encoding
  room := h.room
  attachment := h.attachment
  own := rel_mono h.own hρ
  data := rel_mono h.data fun _ _ hx => ⟨hρ _ _ hx.1, hx.2⟩

theorem strings (h : c.Renamed ρ c') : c.Matches ρ c' := ⟨h.size, by rw [h.flags], h.own, h.data⟩

theorem bytes (h : c.Renamed ρ c') : c'.bytes = c.bytes := h.strings.bytes

theorem isNone (h : c.Renamed ρ c') : c'.data.isNone = c.data.isNone := h.strings.isNone

theorem isOwner (hρ : ρ.OneToOne n n') (h : c.Renamed ρ c') : c'.isOwner = c.isOwner := h.strings.isOwner hρ

theorem seeing (hρ : ρ.OneToOne n n') (h : c.Renamed ρ c') (hd : d.Renamed ρ d') :
    (c.seeing d).Renamed ρ (c'.seeing d') := by
  obtain ⟨hs, hs'⟩ | ⟨_, _, _, hx, hs, hs'⟩ := h.strings.seeing_cases hρ hd.strings <;> rw [hs, hs']
  · exact hd
  · exact ⟨hd.flags, hd.payload, hd.size, hd.encoding, hd.room, hd.attachment, hd.own, .some ⟨hx, rfl⟩⟩

theorem withFlags (h : c.Renamed ρ c') (f : Flags) : (c.withFlags f).Renamed ρ (c'.withFlags f) :=
  ⟨rfl, h.payload, h.size, h.encoding, h.room, h.attachment, h.own, h.data⟩

theorem withPayload (h : c.Renamed ρ c') (p : UInt64) : (c.withPayload p).Renamed ρ (c'.withPayload p) :=
  ⟨h.flags, rfl, h.size, h.encoding, h.room, h.attachment, h.own, h.data⟩

theorem grow (h : c.Renamed ρ c') (hρ : ρ.OneToOne n n') (k : Nat) (preserve : Bool) :
    (c.grow n k preserve).Renamed (ρ.add n n') (c'.grow n' k preserve) := by
  simp only [Cell.grow, h.room, h.bytes, h.isOwner hρ, h.flags]
  have hnew : ρ.add n n' n n' := .inr ⟨rfl, rfl⟩
  rcases rel_cases h.own with ⟨ho, ho'⟩ | ⟨x, x', ho, ho', hx⟩ <;> rw [ho, ho'] <;> dsimp only
  · exact ⟨rfl, h.payload, h.size, h.encoding, rfl, h.attachment, .some hnew, .some ⟨hnew, rfl⟩⟩
  · split
    · exact ⟨rfl, h.payload, h.size, h.encoding, rfl, h.attachment, .some hnew, .some ⟨hnew, rfl⟩⟩
    · exact ⟨rfl, h.payload, h.size, h.encoding, rfl, h.attachment, .some (.inl hx), .some ⟨.inl hx, rfl⟩⟩

theorem clearAndResize (h : c.Renamed ρ c') (hρ : ρ.OneToOne n n') (k : Nat) :
    (c.clearAndResize n k).Renamed (ρ.add n n') (c'.clearAndResize n' k) := by
  simp only [Cell.clearAndResize, h.room, h.flags]
  split
  · exact h.grow hρ k false
  · exact (h.grow hρ k false).withFlags _

theorem mapData (h : c.Renamed ρ c') (g : Bytes → Bytes) (size : Nat) (flags : Flags) {e e' : Nat} (he : e' = e) :
    ({ c with data := c.data.map fun b => { b with bytes := g b.bytes }, size, flags, encoding := e } : Cell).Renamed ρ
      { c' with data := c'.data.map fun b => { b with bytes := g b.bytes }, size, flags, encoding := e' } where
  flags := rfl
  payload := h.payload
  size := rfl
  encoding := he
  room := h.room
  attachment := h.attachment
  own := h.own
  data := by
    rcases rel_cases h.data with ⟨ho, ho'⟩ | ⟨x, x', ho, ho', hx⟩ <;> simp only [ho, ho']
    · exact .none
    · exact .some ⟨hx.1, congrArg g hx.2⟩

theorem stringify (h : c.Renamed ρ c') (hρ : ρ.OneToOne n n') (force : Bool) :
    (c.stringify n force).Renamed (ρ.add n n') (c'.stringify n' force) := by
  have hroom := h.clearAndResize hρ 32
  simp only [Cell.stringify, Content.int, Content.real, h.flags, h.payload, hroom.flags]
  exact hroom.mapData (fun _ => _) _ _ rfl

theorem applyNumericAffinity (h : c.Renamed ρ c') :
    (c.applyNumericAffinity false).Renamed ρ (c'.applyNumericAffinity false) := by
  simp only [Cell.applyNumericAffinity, Cell.readReal, Cell.readInt, h.bytes, h.flags, Bool.false_eq_true, if_false]
  by_cases hwhole : (Decimal.readReal c.bytes).whole = true
  · by_cases hfit : (Decimal.readInt c.bytes).fit = .exact
    · simp only [hwhole, hfit, if_true]
      exact (h.withFlags _).withPayload _
    · simp only [hwhole, hfit, if_true, if_false]
      exact (h.withFlags _).withPayload _
  · simp only [hwhole]
    exact h

theorem expandBlob (h : c.Renamed ρ c') (hρ : ρ.OneToOne n n') :
    (c.expandBlob n).Renamed (ρ.add n n') (c'.expandBlob n') := by
  simp only [Cell.expandBlob, Content.zeros, h.flags, h.payload, h.size]
  by_cases hz : c.flags.zero = true
  · have hgrown := h.grow hρ (max 1 (c.size + (wrapHalf c.payload.toNat).toNat)) true
    simp only [hz, if_true, hgrown.flags]
    exact hgrown.mapData (· ++ List.replicate (wrapHalf c.payload.toNat).toNat 0) _ _ hgrown.encoding
  · simp only [hz]
    exact h.mono fun _ _ hx => .inl hx

theorem compare (h : c.Renamed ρ c') (hd : d.Renamed ρ d') (coll : Option Collation) :
    Cell.compare coll c' d' = Cell.compare coll c d := by
  have hnumbers : Cell.compareNumbers c' d' = Cell.compareNumbers c d := by
    rw [Cell.compareNumbers, Cell.compareNumbers, Content.int, Content.int, Content.real, Content.real, h.flags,
      h.payload, hd.flags, hd.payload]
    rfl
  have hstrings : Cell.compareStrings coll c' d' = Cell.compareStrings coll c d := by
    simp only [Cell.compareStrings, h.flags, h.bytes, hd.flags, hd.bytes]
  simp only [Cell.compare, hnumbers, hstrings, h.flags, hd.flags]

end Renamed

end Cell

namespace Bank

/-- Two banks with the same cells but for the names of their buffers. -/
structure Renames (ρ : Naming) (b b' : Bank) : Prop where
  size : b'.cells.size = b.cells.size
  reach : b'.reach = b.reach
  names : ρ.OneToOne b.fresh b'.fresh
  cells : ∀ i, (b.cellAt i).Renamed ρ (b'.cellAt i)

def Named (b : Bank) : Prop :=
  ∀ i, (∀ n, (b.cellAt i).own = some n → n < b.fresh) ∧ ∀ d, (b.cellAt i).data = some d → d.name < b.fresh

variable {ρ : Naming} {b b' : Bank} {i : Nat} {c c' : Cell}

theorem Named.renames (h : b.Named) : b.Renames (.same b.fresh) b where
  size := rfl
  reach := rfl
  names := Naming.same_oneToOne _
  cells i := by
    refine ⟨rfl, rfl, rfl, rfl, rfl, rfl, ?_, ?_⟩
    · cases ho : (b.cellAt i).own with
      | none => exact .none
      | some n => exact .some ⟨rfl, (h i).1 n ho⟩
    · cases hd : (b.cellAt i).data with
      | none => exact .none
      | some d => exact .some ⟨⟨rfl, (h i).2 d hd⟩, rfl⟩

namespace Renames

theorem put (h : b.Renames ρ b') (hi : i < b.cells.size) (hc : c.Renamed ρ c') :
    (b.put i c).Renames ρ (b'.put i c') where
  size := by rw [size_put, size_put]; exact h.size
  reach := by rw [reach_put, reach_put]; exact h.reach
  names := by rw [fresh_put, fresh_put]; exact h.names
  cells j := by
    rw [cellAt_put hi, cellAt_put (h.size ▸ hi), hc.strings.overwrites h.names (h.cells i).strings]
    split
    · exact hc
    · split
      · exact hc.seeing h.names (h.cells j)
      · exact h.cells j

theorem renewed (h : b.Renames ρ b') : b.renewed.Renames (ρ.add b.fresh b'.fresh) b'.renewed where
  size := h.size
  reach := h.reach
  names := h.names.add
  cells j := (h.cells j).mono fun _ _ hx => .inl hx

theorem renewed_left (h : b.Renames ρ b') : b.renewed.Renames ρ b' where
  size := h.size
  reach := h.reach
  names := h.names.mono (Nat.le_succ _) (Nat.le_refl _)
  cells := h.cells

theorem renewed_right (h : b.Renames ρ b') : b.Renames ρ b'.renewed where
  size := h.size
  reach := h.reach
  names := h.names.mono (Nat.le_refl _) (Nat.le_succ _)
  cells := h.cells

theorem knowing (h : b.Renames ρ b') (s : Sheet) (l : Ledger) : (b.knowing s l).Renames ρ b' :=
  ⟨h.size, h.reach, h.names, h.cells⟩

theorem modify (h : b.Renames ρ b') (hi : i < b.cells.size) {f : Nat → Cell → Cell}
    (hf : ∀ n n' c c', ρ.OneToOne n n' → c.Renamed ρ c' → (f n c).Renamed (ρ.add n n') (f n' c')) :
    (b.renewed.put i (f b.fresh (b.cellAt i))).Renames (ρ.add b.fresh b'.fresh)
      (b'.renewed.put i (f b'.fresh (b'.cellAt i))) :=
  h.renewed.put hi (hf _ _ _ _ h.names (h.cells i))

theorem modify_right (h : b.Renames ρ b') {f : Nat → Cell → Cell} (hf : f b'.fresh (b'.cellAt i) = b'.cellAt i) :
    b.Renames ρ (b'.renewed.put i (f b'.fresh (b'.cellAt i))) := by
  have hput : b'.renewed.put i (b'.cellAt i) = b'.renewed := put_cellAt b'.renewed i
  rw [hf, hput]
  exact h.renewed_right

end Renames

end Bank

end QueryMachine
