import Mathlib
import QueryMachine.Machine.Statement
import QueryMachine.Proofs.Checked
import QueryMachine.Proofs.Ranges
import QueryMachine.Proofs.Turns

/-!
Scans of a range of an index: a search for the first entry, then for every entry a comparison with the end
of the range, a body and a step to the next entry.
-/

namespace QueryMachine

theorem check_run {σ : Type} {p : Bool} {s : σ} (h : p = true) : check p s = .ok () s := (Guards.check p s).run h

namespace Bank

variable {b : Bank} {s : Sheet} {i : Nat}

/-- A run goes on in which all that is known is true. -/
def Knows (b : Bank) (s : Sheet) : Prop := b.Faithful s fun _ => none

/-- Only what is known changes, and it is true again. -/
def Stays {α : Type} (x : BankM α) (b : Bank) (v : α) : Prop :=
  ∃ b' s, x b = .ok v b' ∧ b'.Knows s ∧ b'.cells = b.cells ∧ b'.reach = b.reach

theorem Knows.pure {α : Type} (h : b.Knows s) (v : α) : Stays (pure v) b v := ⟨b, s, rfl, h, rfl, rfl⟩

theorem Stays.bind {α β : Type} {x : BankM α} {k : α → BankM β} {v : α} {w : β} (hx : Stays x b v)
    (hk : ∀ b' s, b'.Knows s → b'.cells = b.cells → b'.reach = b.reach → Stays (k v) b' w) :
    Stays (x >>= k) b w := by
  obtain ⟨b', s, hrun, hs, hcells, hreach⟩ := hx
  obtain ⟨b'', s', hrun', hs', hcells', hreach'⟩ := hk b' s hs hcells hreach
  exact ⟨b'', s', (bind_of_ok hrun).trans hrun', hs', hcells'.trans hcells, hreach'.trans hreach⟩

theorem Knows.flags (h : b.Knows s) (hi : i < b.cells.size) : Stays (flags i) b (b.cellAt i).flags := by
  obtain ⟨b', t, hrun, hcells, hfaithful, -⟩ := h.access hi (a := .getFlags) trivial
  obtain ⟨b'', hflags, t', l, rfl, -, -⟩ := h.keeps.flags_run (h.holds i).flags
  have hsame : b.knowing t' l = b' := by
    have hboth := (discard_of_ok hflags).symm.trans hrun
    injection hboth
  subst hsame
  refine ⟨_, t, hflags, ?_, rfl, rfl⟩
  rw [Action.lastPart, Access.lastPart, Function.update_eq_self] at hfaithful
  exact hfaithful

theorem Knows.forgetFact (h : b.Knows s) (hi : i < b.cells.size) : Stays (forgetFact i) b () := by
  obtain ⟨b', t, hrun, hcells, hfaithful, -⟩ := h.access hi (a := .forget) trivial
  obtain ⟨b'', hforget, t', l, rfl, -, -⟩ := h.keeps.forgetFact_run i
  have hsame : b.knowing t' l = b' := by
    have hboth := hforget.symm.trans hrun
    injection hboth
  subst hsame
  refine ⟨_, t, hforget, ?_, rfl, rfl⟩
  rw [Action.lastPart, Access.lastPart] at hfaithful
  have hnone : Function.update (fun _ : Nat => (none : Option Part)) i none = fun _ => none :=
    Function.update_eq_self i _
  rwa [hnone] at hfaithful

theorem Knows.forgetAt (h : b.Knows s) {r : Int} (h0 : 0 ≤ r) (hr : r < b.cells.size) :
    Stays (forgetAt r) b () := by
  have hposition : withLedger (s.position r) b = .ok r.toNat b := by
    simp only [withLedger, Sheet.position, wrapIndex?_of_lt h0 (h.keeps.width.symm ▸ hr)]
    rfl
  obtain ⟨b', t, hrun, hrest⟩ := h.forgetFact (i := r.toNat) (by omega)
  refine ⟨b', t, ?_, hrest⟩
  rw [Bank.forgetAt, bind_of_ok h.keeps.current_run, bind_of_ok hposition, hrun]

theorem Knows.revealed (h : b.Knows s) : { b with holder := { b.holder with inside := some (some s) } } = b := by
  obtain ⟨cells, ⟨blank, outside, inside, useCache⟩, ledger, reach, indexed, fresh⟩ := b
  obtain rfl := h.inside
  rfl

theorem Knows.checkRegisters_run (h : b.Knows s) : Machine.checkRegisters b = .ok () b :=
  h.keeps.guards_checkRegisters.run fun i _ => h.holds i

def contents (b : Bank) (p n : Nat) : List Content := (List.range n).map fun k => (b.cellAt (p + k)).toContent

theorem contents_congr {b' : Bank} (h : b'.cells = b.cells) (p n : Nat) : b'.contents p n = b.contents p n := by
  simp only [contents, cellAt, h]

theorem mapM_of_read {σ α β : Type} {xs : List α} {f : α → EStateM Fault σ β} {g : α → β} {s : σ}
    (h : ∀ a, f a s = .ok (g a) s) : xs.mapM f s = .ok (xs.map g) s := by
  induction xs with
  | nil => rfl
  | cons a xs ih =>
    rw [List.mapM_cons, bind_of_ok (h a), bind_of_ok ih]
    rfl

theorem keyContents_run (b : Bank) (p n : Nat) : Machine.keyContents p n b = .ok (b.contents p n) b := by
  refine mapM_of_read (g := fun k => (b.cellAt (p + k)).toContent) fun k => ?_
  have hslot : slot ((p : Int) + k) b = .ok (p + k) b := slot_run (by omega)
  rw [bind_of_ok hslot]
  rfl

theorem Knows.expandBlob (h : b.Knows s) (hi : i < b.cells.size) (hz : (b.cellAt i).flags.zero = false) :
    Stays (expandBlob i) b () := by
  refine (h.flags hi).bind fun b' s' hs' _ _ => ?_
  rw [hz]
  exact hs'.pure ()

end Bank

namespace Position

variable {t : Tree} {info : Option KeyInfo} {p : Position}

variable (info) in
theorem next_of_here (hp : p.place = .here) :
    (∃ q, p.next t info = (some true, q) ∧ q.place = .here ∧ q.index = p.index + 1 ∧ p.index + 1 < t.entries.length) ∨
      ∃ q, p.next t info = (some false, q) ∧ t.entries.length ≤ p.index + 1 := by
  by_cases hlt : p.index + 1 < t.entries.length
  · refine .inl ⟨{ p with place := .here, index := p.index + 1, noted := none, fresh := false }, ?_, rfl, rfl, hlt⟩
    simp [next, restore, stepNext, hp, hlt]
  · refine .inr ⟨{ p with place := .nowhere, index := p.index + 1, noted := none, fresh := false }, ?_, by omega⟩
    simp [next, restore, stepNext, hp, hlt]

variable (info) in
theorem next_of_nowhere (hp : p.place = .nowhere) : ∃ q, p.next t info = (some false, q) := by
  refine ⟨{ p with noted := none, fresh := false }, ?_⟩
  simp [next, restore, hp]

end Position

structure Cursor.Alike (c d : Cursor) : Prop where
  source : d.source = c.source
  info : d.info = c.info
  isTable : d.isTable = c.isTable
  isOrdered : d.isOrdered = c.isOrdered

/-- The cursor stands on an entry of its tree. -/
structure Cursor.At (j : Nat) (c : Cursor) : Prop where
  deferred : c.deferred = none
  place : c.position.place = .here
  index : c.position.index = j

theorem Cursor.At.isHere {j : Nat} {c : Cursor} (h : c.At j) : c.position.isHere = true := by
  rw [Position.isHere, h.place]
  rfl

theorem Cursor.At.entry {j : Nat} {c : Cursor} (h : c.At j) {t : Tree} {e : Entry} (he : t.entries[j]? = some e) :
    c.position.entry t = e := by
  have hindex : t.entry c.position.index = e := by
    rw [h.index, Tree.entry, List.getD_eq_getElem?_getD, he]
    rfl
  rw [Position.entry, h.place]
  exact hindex

namespace Machine

variable {m : Machine} {c d : Cursor} {t : Tree} {i : Int}

theorem treeOf?_alike (h : c.Alike d) : m.treeOf? d = m.treeOf? c := by
  simp only [treeOf?, h.source, h.info]

theorem source_of_tree (h : m.treeOf? c = some t) : c.pseudo? = none ∧ c.hasTree = true := by
  unfold treeOf? at h
  cases hs : c.source <;> simp_all [Cursor.pseudo?, Cursor.hasTree]

theorem Opens.modifyCursor_run (h : m.Opens i c) (f : Cursor → Cursor) :
    modifyCursor i f m = .ok () (m.withCursor i (f c)) := by
  have hcursor : cursor? i m = .ok (some c) m := by
    simp only [cursor?, h.1, if_true, bind_of_ok get_run, h.2]
    rfl
  rw [modifyCursor, bind_of_ok hcursor]
  exact h.setCursor_run (f c)

@[simp] theorem withCursor_withCursor (m : Machine) (i : Int) (c d : Cursor) :
    (m.withCursor i c).withCursor i d = m.withCursor i d := by
  simp [withCursor]

theorem fetch_run {k : Nat} {i : Instruction} (h : m.program[k]? = some i) : fetch k m = .ok i m := by
  have hlt : k < m.program.size := (Array.getElem?_eq_some_iff.mp h).1
  rw [fetch, bind_of_ok get_run, wrapIndex?_of_lt (by omega) (by omega), Int.toNat_natCast]
  simp only [expect, pure_bind, Array.getD_eq_getD_getElem?, h, Option.getD_some]
  rfl

theorem Opens.withCursor_self (h : m.Opens i c) : m.withCursor i c = m := by
  have hset : m.cursors.setIfInBounds i.toNat (some c) = m.cursors := by
    obtain ⟨hlt, hget⟩ := Array.getElem?_eq_some_iff.mp h.2
    rw [Array.setIfInBounds, dif_pos hlt, ← hget, Array.set_getElem_self]
  rw [Machine.withCursor, hset]

theorem treeOf_run (h : m.treeOf? c = some t) : treeOf c m = .ok t m := by
  rw [treeOf, bind_of_ok get_run, h]
  rfl

theorem moveOn_run (h : m.Opens i c) (ht : m.treeOf? c = some t) {u : Bool} {found : Option Bool} {q : Position}
    (hn : (if u then c.position.next t c.info else c.position.previous t c.info) = (found, q)) :
    Step.moveOn i u m = .ok found (m.withCursor i { c with position := q }) := by
  rw [Step.moveOn, bind_of_ok h.cursor_run, bind_of_ok (treeOf_run ht)]
  simp only [hn]
  rw [moveCursor, bind_of_ok (h.setCursor_run _)]
  rfl

/-- What a search leaves behind: the cursor stands on the first entry that the search is for, or the
instruction jumps because there is none. -/
def Finds (t : Tree) (n : Nat) (exit : Int) (c : Cursor) (flow : Flow) (d : Cursor) : Prop :=
  c.Alike d ∧ ((n < t.entries.length ∧ flow = .next ∧ d.At n) ∨ (t.entries.length ≤ n ∧ flow = .jump exit))

theorem moveOn_or_jump {i : Instruction} (h : m.Opens i.p1 c) (ht : m.treeOf? c = some t) {found : Bool} {q : Position}
    (hn : c.position.next t c.info = (some found, q)) :
    (do
      match ← Step.moveOn i.p1 true with
      | none => Machine.abort Machine.codeCorrupt
      | some found => return .jumpIf (!found) i.p2 : MachineM Flow) m =
    .ok (.jumpIf (!found) i.p2) (m.withCursor i.p1 { c with position := q }) := by
  rw [bind_of_ok (moveOn_run (u := true) h ht hn)]
  rfl

theorem finishSeek_run {i : Instruction} {b : Bound} {o : Ordering} (hb : b.isUpward = true) (h : m.Opens i.p1 c)
    (ht : m.treeOf? c = some t)
    (hc : (c.position.place = .here ∧ c.position.index < t.entries.length) ∨
      (c.position.place = .nowhere ∧ t.entries = [] ∧ b.misses o = true)) :
    ∃ flow d, Step.finishSeek b o i m = .ok flow (m.withCursor i.p1 d) ∧
      Finds t (if b.misses o then c.position.index + 1 else c.position.index) i.p2 c flow d := by
  let c₁ : Cursor := { c.stale with deferred := none }
  have hopens := h.withCursor c₁
  have hmodify := h.modifyCursor_run fun c => { c.stale with deferred := none }
  rw [Step.finishSeek, bind_of_ok hmodify]
  cases hm : b.misses o with
  | true =>
    simp only [if_true, hb]
    have htree : (m.withCursor i.p1 c₁).treeOf? c₁ = some t := ht
    have hmove {found : Bool} {q : Position} (hn : c₁.position.next t c₁.info = (some found, q)) :=
      (moveOn_or_jump hopens htree hn).trans (by rw [withCursor_withCursor])
    obtain ⟨hplace, hlt⟩ | ⟨hplace, hempty, -⟩ := hc
    · rcases Position.next_of_here c₁.info (t := t) (p := c₁.position) hplace with
        ⟨q, hn, hq, hindex, hlt'⟩ | ⟨q, hn, hge⟩
      · exact ⟨_, _, hmove hn, ⟨rfl, rfl, rfl, rfl⟩, .inl ⟨hlt', rfl, rfl, hq, hindex⟩⟩
      · exact ⟨_, _, hmove hn, ⟨rfl, rfl, rfl, rfl⟩, .inr ⟨hge, rfl⟩⟩
    · obtain ⟨q, hn⟩ := Position.next_of_nowhere c₁.info (t := t) (p := c₁.position) hplace
      exact ⟨_, _, hmove hn, ⟨rfl, rfl, rfl, rfl⟩, .inr ⟨by simp [hempty], rfl⟩⟩
  | false =>
    obtain ⟨hplace, hlt⟩ | ⟨-, -, hmiss⟩ := hc
    · simp only [Bool.false_eq_true, if_false, hb, if_true]
      exact ⟨.next, c₁, rfl, ⟨rfl, rfl, rfl, rfl⟩, .inl ⟨hlt, rfl, rfl, hplace, rfl⟩⟩
    · rw [hm] at hmiss
      cases hmiss

/-- A search in an index goes to the first entry that is not on the wrong side of the key. -/
theorem seekIndex_run {i : Instruction} {b : Bound} {info : KeyInfo} {p : Nat} {key : List Content}
    (hb : b.isUpward = true) (h : m.Opens i.p1 c) (ht : m.treeOf? c = some t) (hinfo : c.info = some info)
    (hp3 : i.p3 = p) (hp4 : i.p4 = .int key.length) (hkey : m.bank.contents p key.length = key)
    (hs : t.Sorted info) (hcompares : t.Compares info key)
    (hn : t.Neighbours (Tree.orderOfRecord { cells := key, info, tie := b.tie })) :
    ∃ flow d, Step.seekIndex b i m = .ok flow (m.withCursor i.p1 d) ∧
      Finds t (t.passed b info key) i.p2 c flow d := by
  have hcells : (liftM (keyContents i.p3 i.p4.toInt) : MachineM (List Content)) m = .ok key m := by
    rw [hp3, hp4]
    exact lift_of_read ((Bank.keyContents_run m.bank p key.length).trans (by rw [hkey]))
  have hgo {o : Ordering} {q : Position}
      (hq : Position.seek t (Tree.orderOfRecord { cells := key, info, tie := b.tie }) false = (some o, q)) :
      Step.seekIndex b i m = Step.finishSeek b o i (m.withCursor i.p1 { c with position := q }) := by
    have hseek : seekKey i.p1 c { cells := key, info, tie := b.tie } m =
        .ok (some o) (m.withCursor i.p1 { c with position := q }) := by
      simp only [seekKey, seekCursor, bind_of_ok get_run, ht, hq]
      rw [moveCursor, bind_of_ok (h.setCursor_run _)]
      rfl
    have hdefault : c.info.getD default = info := by rw [hinfo]; rfl
    rw [Step.seekIndex, bind_of_ok h.cursor_run, bind_of_ok hcells, hdefault, bind_of_ok hseek]
  have hfinish {o : Ordering} {q : Position} (hq : (q.place = .here ∧ q.index < t.entries.length) ∨
      (q.place = .nowhere ∧ t.entries = [] ∧ b.misses o = true)) :=
    finishSeek_run (o := o) hb (h.withCursor { c with position := q }) (c := { c with position := q }) ht hq
  cases hsearch : t.search (Tree.orderOfRecord { cells := key, info, tie := b.tie }) false with
  | empty =>
    rw [Tree.Neighbours, hsearch] at hn
    have hmiss : b.misses .lt = true := by
      cases b with
      | ge | gt => rfl
      | lt | le => cases hb
    obtain ⟨flow, d, hrun, halike, hflow⟩ := hfinish (o := .lt) (q := {}) (.inr ⟨rfl, hn, hmiss⟩)
    have hq : Position.seek t (Tree.orderOfRecord { cells := key, info, tie := b.tie }) false = (some .lt, {}) := by
      rw [Position.seek, hsearch]
      rfl
    rw [withCursor_withCursor] at hrun
    refine ⟨flow, d, (hgo hq).trans hrun, ⟨halike.1, halike.2, halike.3, halike.4⟩, .inr ⟨by simp [hn], ?_⟩⟩
    rcases hflow with ⟨hlt, -⟩ | ⟨-, hflow⟩
    · simp [hn] at hlt
    · exact hflow
  | stopped j o =>
    obtain ⟨hlt, hpassed⟩ := passed_of_neighbours hs hcompares hb hn hsearch
    obtain ⟨flow, d, hrun, halike, hflow⟩ := hfinish (o := o) (q := { place := .here, index := j }) (.inl ⟨rfl, hlt⟩)
    have hq : Position.seek t (Tree.orderOfRecord { cells := key, info, tie := b.tie }) false =
        (some o, { place := .here, index := j }) := by
      rw [Position.seek, hsearch]
      rfl
    rw [withCursor_withCursor] at hrun
    rw [hpassed]
    exact ⟨flow, d, (hgo hq).trans hrun, ⟨halike.1, halike.2, halike.3, halike.4⟩, hflow⟩
  | damaged j =>
    rw [Tree.Neighbours, hsearch] at hn
    exact hn.elim

/-- Only what is known about the registers has changed, and it is true again. -/
def Settles (x : MachineM Flow) (m : Machine) (flow : Flow) (m' : Machine) : Prop :=
  ∃ b s, x m = .ok flow (m'.withBank b) ∧ b.Knows s ∧ b.cells = m'.bank.cells ∧ b.reach = m'.bank.reach

theorem forgetting_run {s : Sheet} (hs : m.bank.Knows s) (rs : List Int) (hrs : ∀ r ∈ rs, 0 ≤ r ∧ r < m.bank.cells.size) :
    ∃ b s', (forIn rs PUnit.unit fun r _ => do
        liftM (Bank.forgetAt r)
        pure (.yield PUnit.unit) : MachineM PUnit) m = .ok ⟨⟩ (m.withBank b) ∧
      b.Knows s' ∧ b.cells = m.bank.cells ∧ b.reach = m.bank.reach := by
  induction rs generalizing m s with
  | nil => exact ⟨m.bank, s, rfl, hs, rfl, rfl⟩
  | cons r rs ih =>
    obtain ⟨h0, hr⟩ := hrs r List.mem_cons_self
    obtain ⟨b, s₁, hrun, hs₁, hcells, hreach⟩ := hs.forgetAt h0 hr
    have hlift := lift_of_ok (m := m) hrun
    obtain ⟨b', s', hrest, hs', hcells', hreach'⟩ := ih (m := m.withBank b) hs₁ fun r hr => by
      rw [bank_withBank, hcells]
      exact hrs r (List.mem_cons_of_mem _ hr)
    refine ⟨b', s', ?_, hs', hcells'.trans hcells, hreach'.trans hreach⟩
    rw [List.forIn_cons, bind_assoc, bind_of_ok hlift]
    exact hrest

theorem mutating_settles {x : MachineM Flow} {rs : List Int} {flow : Flow} {m' : Machine} (hx : Settles x m flow m')
    (hrs : ∀ r ∈ rs, 0 ≤ r ∧ r < m'.bank.cells.size) : Settles (mutating rs x) m flow m' := by
  obtain ⟨b, s, hrun, hs, hcells, hreach⟩ := hx
  obtain ⟨b', s', hrest, hs', hcells', hreach'⟩ := forgetting_run (m := m'.withBank b) hs rs fun r hr => by
    rw [bank_withBank, hcells]
    exact hrs r hr
  refine ⟨b', s', ?_, hs', hcells'.trans hcells, hreach'.trans hreach⟩
  rw [mutating, bind_of_ok hrun]
  exact bind_of_ok hrest

end Machine

def Bound.seekOp : Bound → Opcode
  | .lt => .seekLT
  | .le => .seekLE
  | .ge => .seekGE
  | .gt => .seekGT

def Bound.compareOp : Bound → Opcode
  | .lt => .idxLT
  | .le => .idxLE
  | .ge => .idxGE
  | .gt => .idxGT

/-- A loop over a range of an index: a search at `start`, a comparison behind it, the body, and a step to the
next entry at `close`. -/
structure Scan where
  cursor : Int
  start : Nat
  close : Nat
  seek : Instruction
  top : Instruction
  again : Instruction
  lower : Bound
  upper : Bound
  lowerAt : Nat
  upperAt : Nat
  lowerKey : List Content
  upperKey : List Content
  info : KeyInfo

namespace Scan

def stop (l : Scan) : Nat := l.close + 1

/-- The instructions of the loop. The key registers hold no zeros that are not written out. -/
structure Formed (l : Scan) : Prop where
  lower_upward : l.lower.isUpward = true
  upper_upward : l.upper.isUpward = true
  order : l.start + 1 < l.close
  seek_op : l.seek.op = l.lower.seekOp
  seek_cursor : l.seek.p1 = l.cursor
  seek_exit : l.seek.p2 = l.stop
  seek_key : l.seek.p3 = l.lowerAt
  seek_width : l.seek.p4 = .int l.lowerKey.length
  top_op : l.top.op = l.upper.compareOp
  top_cursor : l.top.p1 = l.cursor
  top_exit : l.top.p2 = l.stop
  top_key : l.top.p3 = l.upperAt
  top_width : l.top.p4 = .int l.upperKey.length
  top_option : l.top.p5 = 0 ∨ l.top.p5 = 1
  again_op : l.again.op = .next
  again_cursor : l.again.p1 = l.cursor
  again_target : l.again.p2 = (l.start + 1 : Nat)
  again_option : l.again.p5 < Tracked.counters
  lower_ne : l.lowerKey ≠ []
  upper_ne : l.upperKey ≠ []
  written : ∀ c ∈ l.lowerKey ++ l.upperKey, c.flags.zero = false

/-- The machine is ready to execute the loop with a cursor on the tree `t`, which is as `P` says. -/
structure Ready (l : Scan) (t : Tree) (P : Cursor → Prop) (m : Machine) (s : Sheet) : Prop where
  seek : Machine.fetch l.start m = .ok l.seek m
  top : Machine.fetch (l.start + 1 : Nat) m = .ok l.top m
  again : Machine.fetch l.close m = .ok l.again m
  tracked : ∀ f ∈ [Family.seekOrdered, .indexCompare, .next], m.status.tracked f = true
  cursor : ∃ c, m.Opens l.cursor c ∧ m.treeOf? c = some t ∧ c.info = some l.info ∧ c.isTable = false ∧
    c.isOrdered = true ∧ P c
  known : m.bank.Knows s
  lower_inside : l.lowerAt + l.lowerKey.length ≤ m.bank.reach
  upper_inside : l.upperAt + l.upperKey.length ≤ m.bank.reach
  reach : m.bank.reach ≤ m.bank.cells.size
  lower : m.bank.contents l.lowerAt l.lowerKey.length = l.lowerKey
  upper : m.bank.contents l.upperAt l.upperKey.length = l.upperKey

end Scan

namespace Machine

variable {m : Machine} {t : Tree} {l : Scan} {P Q : Cursor → Prop} {s : Sheet}

theorem ready_of_settles (h : l.Ready t P m s) {c d : Cursor} (hc : m.Opens l.cursor c) (halike : c.Alike d) (hd : Q d)
    {b : Bank} {s' : Sheet} (hb : b.Knows s') (hcells : b.cells = m.bank.cells) (hreach : b.reach = m.bank.reach) :
    l.Ready t Q ((m.withCursor l.cursor d).withBank b) s' where
  seek := fetch_congr (m := m) rfl h.seek
  top := fetch_congr (m := m) rfl h.top
  again := fetch_congr (m := m) rfl h.again
  tracked := h.tracked
  cursor := by
    obtain ⟨c', hc', ht, hinfo, htable, hordered, -⟩ := h.cursor
    have hsame : c' = c := by
      have := hc'.2.symm.trans hc.2
      simpa using this
    subst hsame
    refine ⟨d, hc.withCursor d, ?_, halike.info.trans hinfo, halike.isTable.trans htable,
      halike.isOrdered.trans hordered, hd⟩
    exact (treeOf?_alike (m := m) halike).trans ht
  known := hb
  lower_inside := by rw [bank_withBank, hreach]; exact h.lower_inside
  upper_inside := by rw [bank_withBank, hreach]; exact h.upper_inside
  reach := by rw [bank_withBank, hreach, hcells]; exact h.reach
  lower := by rw [bank_withBank, Bank.contents_congr hcells]; exact h.lower
  upper := by rw [bank_withBank, Bank.contents_congr hcells]; exact h.upper

theorem span_inside {p n k : Nat} (h : p + n ≤ k) :
    ∀ r ∈ Instruction.span p (Operand.int n).toInt, 0 ≤ r ∧ r < (k : Int) := by
  intro r hr
  obtain ⟨j, hj, rfl⟩ := List.mem_map.mp hr
  have hlt : j < n := by simpa [Operand.toInt] using List.mem_range.mp hj
  omega

theorem seekOrdered_settles (hl : l.Formed) (h : l.Ready t P m s) (hs : t.Sorted l.info)
    (hcompares : t.Compares l.info l.lowerKey)
    (hn : t.Neighbours (Tree.orderOfRecord { cells := l.lowerKey, info := l.info, tie := l.lower.tie })) :
    ∃ flow c d, Settles (Machine.seekOrdered l.lower l.seek) m flow (m.withCursor l.cursor d) ∧ m.Opens l.cursor c ∧
      Finds t (t.passed l.lower l.info l.lowerKey) l.stop c flow d := by
  obtain ⟨c, hc, ht, hinfo, htable, hordered, -⟩ := h.cursor
  obtain ⟨hpseudo, htree⟩ := source_of_tree ht
  have hpositive : 0 < l.lowerKey.length := List.length_pos_iff.mpr hl.lower_ne
  have hinside := h.lower_inside
  have hreach := h.reach
  -- the first register of the key needs no zeros written out
  have hfirst : (m.bank.cellAt l.lowerAt).toContent ∈ l.lowerKey := by
    rw [← h.lower]
    exact List.mem_map.mpr ⟨0, List.mem_range.mpr hpositive, rfl⟩
  have hzero : (m.bank.cellAt l.lowerAt).flags.zero = false := hl.written _ (List.mem_append_left _ hfirst)
  obtain ⟨b, s', hexpand, hknown, hcells, hreach'⟩ := h.known.expandBlob (i := l.lowerAt) (by omega) hzero
  let c' : Cursor := { c with nullRow := false }
  have hopens : ((m.withCursor l.cursor c').withBank b).Opens l.seek.p1 c' := by
    rw [hl.seek_cursor]
    exact hc.withCursor c'
  obtain ⟨flow, d, hseek, halike, hfinds⟩ := seekIndex_run hl.lower_upward hopens
    (t := t) ht hinfo hl.seek_key hl.seek_width ((Bank.contents_congr hcells _ _).trans h.lower) hs hcompares hn
  rw [hl.seek_exit] at hfinds
  refine ⟨flow, c, d, mutating_settles ⟨b, s', ?_, hknown, hcells, hreach'⟩ ?_, hc,
    ⟨halike.1, halike.2, halike.3, halike.4⟩, hfinds⟩
  · have hcursor : cursor l.seek.p1 m = .ok c m := by
      rw [hl.seek_cursor]
      exact hc.cursor_run
    have hexit : (0 : Int) < l.seek.p2 := by
      rw [hl.seek_exit, Scan.stop]
      omega
    have hmodify : modifyCursor l.seek.p1 (fun c => { c with nullRow := false }) m =
        .ok () (m.withCursor l.cursor c') := by
      rw [hl.seek_cursor]
      exact hc.modifyCursor_run _
    have hregister : (liftM (Bank.register l.seek.p3) : MachineM Nat) (m.withCursor l.cursor c') =
        .ok l.lowerAt (m.withCursor l.cursor c') := by
      rw [hl.seek_key]
      exact lift_of_read (Bank.register_run (b := m.bank) (by omega) (by omega))
    have hblob := lift_of_ok (m := m.withCursor l.cursor c') hexpand
    have hwidth : (l.seek.p4.isInt && decide (0 < l.seek.p4.toInt)) = true := by
      rw [hl.seek_width]
      simp [Operand.isInt, Operand.toInt, hpositive]
    have htracked := h.tracked .seekOrdered (by decide)
    rw [choose, bind_of_ok get_run, if_pos htracked, Tracked.seekOrdered, bind_of_ok hcursor,
      bind_of_ok (check_run (by simp; omega)), bind_of_ok (check_run (by simp [hpseudo, hordered, htree])),
      bind_of_ok hmodify, if_neg (by simp [htable]), bind_of_ok (check_run hwidth),
      bind_of_ok hregister, bind_of_ok hblob, bind_of_ok hseek, bind_of_ok (check_run (by simp; omega))]
    show EStateM.Result.ok flow (((m.withCursor l.cursor c').withCursor l.seek.p1 d).withBank b) = _
    rw [hl.seek_cursor, withCursor_withCursor]
  · rw [keySpan, hl.seek_key, hl.seek_width]
    exact span_inside (hinside.trans hreach)

theorem treeCursor_run {i : Int} {c : Cursor} (hc : m.Opens i c) (ht : m.treeOf? c = some t) :
    Tracked.treeCursor i m = .ok c m := by
  rw [Tracked.treeCursor, bind_of_ok hc.cursor_run, bind_of_ok (check_run (source_of_tree ht).2)]
  rfl

theorem indexCompare_settles {j : Nat} (hl : l.Formed) (h : l.Ready t (Cursor.At j) m s) (hs : t.Sorted l.info)
    (hcompares : t.Compares l.info l.upperKey) {e : Entry} (he : t.entries[j]? = some e) :
    Settles (Machine.indexCompare l.upper l.top) m
      (.jumpIf (!l.upper.misses (e.orderOf l.info l.upperKey)) l.stop) m := by
  obtain ⟨c, hc, ht, hinfo, -, -, hat⟩ := h.cursor
  have hpositive : 0 < l.upperKey.length := List.length_pos_iff.mpr hl.upper_ne
  have hinside := h.upper_inside
  have hreach := h.reach
  refine mutating_settles ⟨m.bank, s, ?_, h.known, rfl, rfl⟩ ?_
  · have hwidth : max l.top.p4.toInt 1 = (l.upperKey.length : Int) := by
      rw [hl.top_width, Operand.toInt]
      omega
    have hopens : m.Opens l.top.p1 c := by rwa [hl.top_cursor]
    have hregister : (discard (liftM (Bank.register l.top.p3)) : MachineM Unit) m = .ok () m := by
      rw [hl.top_key]
      exact discard_of_ok (lift_of_read (Bank.register_run (b := m.bank) (by omega) (by omega)))
    have hcells : (liftM (keyContents l.top.p3 (max l.top.p4.toInt 1)) : MachineM (List Content)) m =
        .ok l.upperKey m := by
      rw [hl.top_key, hwidth]
      exact lift_of_read ((Bank.keyContents_run m.bank l.upperAt l.upperKey.length).trans (by rw [h.upper]))
    have hdefault : c.info.getD default = l.info := by rw [hinfo]; rfl
    have hcompare (tie : Ordering) : Step.compareEntry tie l.top m =
        .ok (some ((e.orderOf l.info l.upperKey).then tie)) m := by
      have horder := orderOfRecord_run hs hcompares (List.mem_of_getElem? he) tie
      rw [Tree.orderOfRecord] at horder
      rw [Step.compareEntry, bind_of_ok hopens.cursor_run, bind_of_ok hcells, bind_of_ok (treeOf_run ht), if_pos hat.isHere,
        hdefault, hat.entry he, horder]
      rfl
    have hjump : Step.indexCompare l.upper l.top m =
        .ok (.jumpIf (!l.upper.misses (e.orderOf l.info l.upperKey)) l.top.p2) m := by
      cases hu : l.upper with
      | ge =>
        refine (bind_of_ok (hcompare .eq)).trans ?_
        cases e.orderOf l.info l.upperKey <;> rfl
      | gt =>
        refine (bind_of_ok (hcompare .lt)).trans ?_
        cases e.orderOf l.info l.upperKey <;> rfl
      | lt | le => cases hu ▸ hl.upper_upward
    have htracked := h.tracked .indexCompare (by decide)
    rw [choose, bind_of_ok get_run, if_pos htracked, Tracked.indexCompare, bind_of_ok (treeCursor_run hopens ht),
      bind_of_ok (check_run (by simp [hat.deferred])), bind_of_ok (check_run (by simpa using hl.top_option)),
      bind_of_ok (check_run (by rw [hl.top_width]; rfl)), bind_of_ok hregister, hjump, hl.top_exit]
    rfl
  · rw [keySpan, hl.top_key, hl.top_width]
    exact span_inside (hinside.trans hreach)

theorem next_settles {j : Nat} (hl : l.Formed) (h : l.Ready t (Cursor.At j) m s) :
    ∃ flow c d, Settles (choose .next (Tracked.next l.again) (Direct.next l.again)) m flow (m.withCursor l.cursor d) ∧
      m.Opens l.cursor c ∧ c.Alike d ∧
      ((j + 1 < t.entries.length ∧ flow = .jump (l.start + 1 : Nat) ∧ d.At (j + 1)) ∨
        (t.entries.length ≤ j + 1 ∧ flow = .next)) := by
  obtain ⟨c, hc, ht, hinfo, -, -, hat⟩ := h.cursor
  have hopens : m.Opens l.again.p1 c := by rwa [hl.again_cursor]
  have htracked := h.tracked .next (by decide)
  have hrun {found : Bool} {q : Position} (hn : c.position.next t c.info = (some found, q)) :
      choose .next (Tracked.next l.again) (Direct.next l.again) m =
        .ok (.jumpIf found (l.start + 1 : Nat)) (m.withCursor l.cursor
          { ({ c with position := q } : Cursor).stale with nullRow := some found == some false }) := by
    have hmove := moveOn_run (u := true) hopens ht hn
    have hmodify := (hopens.withCursor { c with position := q }).modifyCursor_run
      fun c => { c.stale with nullRow := some found == some false }
    rw [choose, bind_of_ok get_run, if_pos htracked, Tracked.next,
      bind_of_ok (check_run (by simpa using hl.again_option)), bind_of_ok (treeCursor_run hopens ht),
      bind_of_ok (check_run (by simp [hat.deferred])), Direct.next, bind_of_ok hmove, bind_of_ok hmodify,
      withCursor_withCursor, hl.again_cursor, hl.again_target]
    rfl
  rcases Position.next_of_here c.info (t := t) (p := c.position) hat.place with
    ⟨q, hn, hq, hindex, hlt⟩ | ⟨q, hn, hge⟩
  · rw [hat.index] at hindex hlt
    exact ⟨_, c, _, ⟨m.bank, s, hrun hn, h.known, rfl, rfl⟩, hc, ⟨rfl, rfl, rfl, rfl⟩,
      .inl ⟨hlt, rfl, hat.deferred, hq, hindex⟩⟩
  · rw [hat.index] at hge
    exact ⟨_, c, _, ⟨m.bank, s, hrun hn, h.known, rfl, rfl⟩, hc, ⟨rfl, rfl, rfl, rfl⟩, .inr ⟨hge, rfl⟩⟩

end Machine

/-- Where a run goes on after an instruction. -/
def Flow.target (pc : Int) : Flow → Option Int
  | .next => some (pc + 1)
  | .jump target => some target
  | .fail _ | .leave _ => none

/-- Where a run stands between two turns. -/
structure Spot where
  pc : Int
  sheet : Sheet
  machine : Machine

namespace Spot

/-- The machine as the next instruction finds it. -/
def shown (p : Spot) : Machine := p.machine.revealed (some p.sheet)

/-- One turn leads from a spot to another. -/
def Turns (p q : Spot) : Prop :=
  Machine.turn p.pc (some p.sheet) p.machine = .ok (.going q.pc (some q.sheet)) q.machine

/-- A run has given a row; its caller reads the row and goes on. -/
def Resumes (p q : Spot) : Prop :=
  ∃ m, Machine.turn p.pc (some p.sheet) p.machine = .ok (.ended Machine.codeRow) m ∧
    (do
      Bank.prepareReturn
      discard Machine.row
      Machine.start : MachineM Machine.Course) m = .ok (.going q.pc (some q.sheet)) q.machine

variable {p : Spot} {i : Instruction} {flow : Flow} {m : Machine} {pc : Int}

theorem turns_of_settles (hi : Machine.fetch p.pc p.machine = .ok i p.machine) (hb : p.machine.budget ≠ 0)
    (hs : p.shown.bank.Knows p.sheet) (hover : i.op.overwritesSecond = false) (hkeeps : i.op.keepsKnowledge = true)
    (hstep : Machine.Settles (Machine.step p.pc i) (p.machine.entered p.pc i (some p.sheet)) flow m)
    (hflow : flow.target p.pc = some pc) :
    ∃ q b, p.Turns q ∧ q.pc = pc ∧ q.shown = m.withBank b ∧ b.Knows q.sheet ∧ b.cells = m.bank.cells ∧
      b.reach = m.bank.reach := by
  obtain ⟨b, s, hrun, hknown, hcells, hreach⟩ := hstep
  have hbank : (p.machine.entered p.pc i (some p.sheet)).bank = p.shown.bank := Machine.bank_entered _ _ _ _
  have hprepare : (liftM (Machine.prepare i) : MachineM Unit) (p.machine.entered p.pc i (some p.sheet)) =
      .ok () (p.machine.entered p.pc i (some p.sheet)) := by
    refine Machine.lift_of_read ?_
    have hcheck := hs.checkRegisters_run
    rw [hbank, Machine.prepare, hover, hkeeps, if_neg Bool.false_ne_true]
    exact (bind_of_ok hcheck).trans hcheck
  have hconclude : (liftM (Machine.conclude i) : MachineM Unit) (m.withBank b) = .ok () (m.withBank b) := by
    refine Machine.lift_of_read ?_
    rw [Machine.conclude, hkeeps]
    exact hknown.checkRegisters_run
  have hturn : Machine.turn p.pc (some p.sheet) p.machine = Machine.settle p.pc i flow (m.withBank b) := by
    rw [Machine.turn_run hi hb, Machine.execute, bind_assoc, bind_of_ok hprepare, bind_of_ok hrun]
  have hcurrent : (m.withBank b).bank.holder.current? = some s := hknown.keeps.current
  have hrevealed : (m.withBank b).revealed (some s) = m.withBank b :=
    congrArg m.withBank hknown.revealed
  cases flow with
  | next =>
    obtain rfl : p.pc + 1 = pc := by simpa [Flow.target] using hflow
    refine ⟨⟨p.pc + 1, s, m.withBank b⟩, b, ?_, rfl, hrevealed, hknown, hcells, hreach⟩
    rw [Turns, hturn, Machine.settle_next_of hconclude, hcurrent]
  | jump target =>
    obtain rfl : target = pc := by simpa [Flow.target] using hflow
    have hsettle : Machine.settle p.pc i (.jump target) _ = _ := Machine.settle_jump_of hconclude target
    rw [hcurrent] at hsettle
    refine ⟨⟨target, s, if target ≤ p.pc then (m.withBank b).hidden else m.withBank b⟩, b, hturn.trans hsettle, rfl, ?_,
      hknown, hcells, hreach⟩
    by_cases hback : target ≤ p.pc
    · simp only [shown, if_pos hback]
      exact hrevealed
    · simp only [shown, if_neg hback]
      exact hrevealed
  | fail | leave => cases hflow

/-- The spot after one turn, if the run goes on. -/
def next? (p : Spot) : Option Spot :=
  match Machine.turn p.pc (some p.sheet) p.machine with
  | .ok (.going pc (some s)) m => some ⟨pc, s, m⟩
  | _ => none

def after? (p : Spot) : Nat → Option Spot
  | 0 => some p
  | n + 1 => p.next?.bind (after? · n)

def givesRow (p : Spot) : Bool :=
  match Machine.turn p.pc (some p.sheet) p.machine with
  | .ok (.ended code) _ => code == Machine.codeRow
  | _ => false

theorem after?_of_none {n n' : Nat} (h : p.after? n = none) (hn : n ≤ n') : p.after? n' = none := by
  induction n generalizing n' p with
  | zero => cases h
  | succ n ih =>
    obtain ⟨n', rfl⟩ : ∃ k, n' = k + 1 := ⟨n' - 1, by omega⟩
    rw [after?] at h ⊢
    cases hnext : p.next? with
    | none => rfl
    | some q =>
      rw [hnext] at h
      exact ih h (by omega)

end Spot

def Machine.entryAt? (m : Machine) (i : Int) : Option Entry := do
  let c ← (m.cursors[i.toNat]?).join
  let t ← m.treeOf? c
  if c.position.isHere then some (c.position.entry t) else none

namespace Scan

/-- What a turn adds to the entries for which the body is executed: the entry at the cursor, if the turn goes
from the comparison into the body. -/
def entering (l : Scan) (p q : Spot) : List Entry :=
  if p.pc = (l.start + 1 : Nat) ∧ q.pc = (l.start + 2 : Nat) then (q.shown.entryAt? l.cursor).toList else []

/-- A run goes from a spot to another, and on the way the body is executed for these entries. -/
inductive Travels (l : Scan) : Spot → List Entry → Spot → Prop
  | here (p : Spot) : Travels l p [] p
  | turn {p q r : Spot} {log : List Entry} : p.Turns q → Travels l q log r → Travels l p (l.entering p q ++ log) r
  | row {p q r : Spot} {log : List Entry} : p.Resumes q → Travels l q log r → Travels l p log r

/-- Whether an entry lies between the keys: the lower key is before it, or level with it if the bound says so,
and so is the upper key behind it. -/
def between (l : Scan) (e : Entry) : Bool :=
  (match l.lower, e.orderOf l.info l.lowerKey with
    | _, .gt => true
    | .ge, .eq => true
    | _, _ => false) &&
  match l.upper, e.orderOf l.info l.upperKey with
    | _, .lt => true
    | .gt, .eq => true
    | _, _ => false

/-- When a run comes into the body with the cursor on an entry, it goes to the end of the body in at most `k`
turns without a way back to the comparison, and cursor, index and keys are then what they were. -/
def Spares (l : Scan) (t : Tree) (k : Nat) (p : Spot) : Prop :=
  ∀ log q j, l.Travels p log q → q.pc = (l.start + 2 : Nat) → l.Ready t (Cursor.At j) q.shown q.sheet →
    k ≤ q.machine.budget →
    ∃ q', l.Travels q [] q' ∧ q'.pc = l.close ∧ l.Ready t (Cursor.At j) q'.shown q'.sheet ∧
      q.machine.budget ≤ q'.machine.budget + k

/-- Whether an entry is before the end of the range. -/
def below (l : Scan) (e : Entry) : Bool := l.upper.misses (e.orderOf l.info l.upperKey)

variable {l : Scan} {t : Tree} {P Q : Cursor → Prop} {p q r : Spot} {log log' : List Entry} {j k : Nat}

theorem Travels.trans (h : l.Travels p log q) (h' : l.Travels q log' r) : l.Travels p (log ++ log') r := by
  induction h with
  | here => exact h'
  | turn hturn _ ih =>
    rw [List.append_assoc]
    exact .turn hturn (ih h')
  | row hrow _ ih => exact .row hrow (ih h')

theorem travels_of_turns (h : p.Turns q) : l.Travels p (l.entering p q) q := by
  simpa using Travels.turn h (.here q)

theorem entering_of_ne (h : p.pc ≠ (l.start + 1 : Nat)) : l.entering p q = [] := if_neg fun hpq => h hpq.1

theorem Ready.imp {m : Machine} {s : Sheet} (h : l.Ready t P m s) (hPQ : ∀ c, P c → Q c) : l.Ready t Q m s :=
  { h with
    cursor := by
      obtain ⟨c, hc, ht, hinfo, htable, hordered, hP⟩ := h.cursor
      exact ⟨c, hc, ht, hinfo, htable, hordered, hPQ c hP⟩ }

theorem Ready.entered (h : l.Ready t P p.shown p.sheet) (pc : Int) (i : Instruction) :
    l.Ready t P (p.machine.entered pc i (some p.sheet)) p.sheet := by
  have hentered : p.machine.entered pc i (some p.sheet) =
      { p.shown with
        trace := (p.machine.entered pc i (some p.sheet)).trace
        shown := (p.machine.entered pc i (some p.sheet)).shown
        budget := p.machine.budget - 1 } := by
    simp only [Machine.entered, Machine.enterTrace, Machine.settleTrace_eq]
    rfl
  rw [hentered]
  exact
    { seek := Machine.fetch_congr (m := p.shown) rfl h.seek
      top := Machine.fetch_congr (m := p.shown) rfl h.top
      again := Machine.fetch_congr (m := p.shown) rfl h.again
      tracked := h.tracked
      cursor := h.cursor
      known := h.known
      lower_inside := h.lower_inside
      upper_inside := h.upper_inside
      reach := h.reach
      lower := h.lower
      upper := h.upper }

theorem Ready.turns (h : l.Ready t P p.shown p.sheet) {i : Instruction} (hi : Machine.fetch p.pc p.shown = .ok i p.shown)
    (hb : p.machine.budget ≠ 0) (hover : i.op.overwritesSecond = false) (hkeeps : i.op.keepsKnowledge = true)
    {flow : Flow} {pc : Int} {c d : Cursor}
    (hstep : Machine.Settles (Machine.step p.pc i) (p.machine.entered p.pc i (some p.sheet)) flow
      ((p.machine.entered p.pc i (some p.sheet)).withCursor l.cursor d))
    (hc : (p.machine.entered p.pc i (some p.sheet)).Opens l.cursor c) (halike : c.Alike d) (hd : Q d)
    (hflow : flow.target p.pc = some pc) :
    ∃ q, p.Turns q ∧ q.pc = pc ∧ l.Ready t Q q.shown q.sheet ∧ q.machine.budget + 1 = p.machine.budget := by
  obtain ⟨q, b, hturns, hpc, hshown, hknown, hcells, hreach⟩ :=
    Spot.turns_of_settles (Machine.fetch_congr (m := p.shown) rfl hi) hb h.known hover hkeeps hstep hflow
  refine ⟨q, hturns, hpc, ?_, ?_⟩
  · rw [hshown]
    exact Machine.ready_of_settles (h.entered p.pc i) hc halike hd hknown hcells hreach
  · have hbudget : q.machine.budget = p.machine.budget - 1 := congrArg Machine.budget hshown
    omega

theorem seekOp_keeps (b : Bound) : b.seekOp.overwritesSecond = false ∧ b.seekOp.keepsKnowledge = true := by
  cases b <;> decide

theorem compareOp_keeps (b : Bound) : b.compareOp.overwritesSecond = false ∧ b.compareOp.keepsKnowledge = true := by
  cases b <;> decide

theorem step_seek (hl : l.Formed) (pc : Int) : Machine.step pc l.seek = Machine.seekOrdered l.lower l.seek := by
  have hop := hl.seek_op
  cases hb : l.lower <;> rw [hb] at hop <;> simp only [Machine.step, hop, Bound.seekOp]

theorem step_top (hl : l.Formed) (pc : Int) : Machine.step pc l.top = Machine.indexCompare l.upper l.top := by
  have hop := hl.top_op
  cases hb : l.upper <;> rw [hb] at hop <;> simp only [Machine.step, hop, Bound.compareOp]

theorem step_again (hl : l.Formed) (pc : Int) :
    Machine.step pc l.again = Machine.choose .next (Tracked.next l.again) (Direct.next l.again) := by
  simp only [Machine.step, hl.again_op]

theorem turn_seek (hl : l.Formed) (h : l.Ready t P p.shown p.sheet) (hpc : p.pc = l.start) (hb : p.machine.budget ≠ 0)
    (hs : t.Sorted l.info) (hcompares : t.Compares l.info l.lowerKey)
    (hn : t.Neighbours (Tree.orderOfRecord { cells := l.lowerKey, info := l.info, tie := l.lower.tie })) :
    ∃ q, p.Turns q ∧ q.machine.budget + 1 = p.machine.budget ∧
      ((t.passed l.lower l.info l.lowerKey < t.entries.length ∧ q.pc = (l.start + 1 : Nat) ∧
          l.Ready t (Cursor.At (t.passed l.lower l.info l.lowerKey)) q.shown q.sheet) ∨
        (t.entries.length ≤ t.passed l.lower l.info l.lowerKey ∧ q.pc = l.stop ∧
          l.Ready t (fun _ => True) q.shown q.sheet)) := by
  have hkeeps := seekOp_keeps l.lower
  rw [← hl.seek_op] at hkeeps
  have hfetch : Machine.fetch p.pc p.shown = .ok l.seek p.shown := by
    rw [hpc]
    exact h.seek
  obtain ⟨flow, c, d, hstep, hc, halike, hfinds⟩ :=
    Machine.seekOrdered_settles hl (h.entered p.pc l.seek) hs hcompares hn
  rw [← step_seek hl p.pc] at hstep
  rcases hfinds with ⟨hlt, rfl, hat⟩ | ⟨hge, rfl⟩
  · obtain ⟨q, hturns, hq, hready, hbudget⟩ := h.turns hfetch hb hkeeps.1 hkeeps.2 hstep hc halike hat rfl
    exact ⟨q, hturns, hbudget, .inl ⟨hlt, by rw [hq, hpc]; rfl, hready⟩⟩
  · obtain ⟨q, hturns, hq, hready, hbudget⟩ :=
      h.turns (Q := fun _ => True) hfetch hb hkeeps.1 hkeeps.2 hstep hc halike trivial rfl
    exact ⟨q, hturns, hbudget, .inr ⟨hge, hq, hready⟩⟩

theorem turn_top (hl : l.Formed) (h : l.Ready t (Cursor.At j) p.shown p.sheet) (hpc : p.pc = (l.start + 1 : Nat))
    (hb : p.machine.budget ≠ 0) (hs : t.Sorted l.info) (hcompares : t.Compares l.info l.upperKey) {e : Entry}
    (he : t.entries[j]? = some e) :
    ∃ q, p.Turns q ∧ q.machine.budget + 1 = p.machine.budget ∧ l.Ready t (Cursor.At j) q.shown q.sheet ∧
      q.pc = if l.below e then ((l.start + 2 : Nat) : Int) else l.stop := by
  have hkeeps := compareOp_keeps l.upper
  rw [← hl.top_op] at hkeeps
  have hfetch : Machine.fetch p.pc p.shown = .ok l.top p.shown := by
    rw [hpc]
    exact h.top
  have hready := h.entered p.pc l.top
  have hstep := Machine.indexCompare_settles hl hready hs hcompares he
  obtain ⟨c, hc, -, -, -, -, hat⟩ := hready.cursor
  have hmoved : Machine.Settles (Machine.step p.pc l.top) (p.machine.entered p.pc l.top (some p.sheet))
      (.jumpIf (!l.upper.misses (e.orderOf l.info l.upperKey)) l.stop)
      ((p.machine.entered p.pc l.top (some p.sheet)).withCursor l.cursor c) := by
    rw [hc.withCursor_self, step_top hl]
    exact hstep
  have htarget : (Flow.jumpIf (!l.upper.misses (e.orderOf l.info l.upperKey)) l.stop).target p.pc =
      some (if l.below e then ((l.start + 2 : Nat) : Int) else l.stop) := by
    rw [hpc, below]
    cases l.upper.misses (e.orderOf l.info l.upperKey) <;> rfl
  obtain ⟨q, hturns, hq, hready', hbudget⟩ :=
    h.turns hfetch hb hkeeps.1 hkeeps.2 hmoved hc ⟨rfl, rfl, rfl, rfl⟩ hat htarget
  exact ⟨q, hturns, hbudget, hready', hq⟩

theorem turn_again (hl : l.Formed) (h : l.Ready t (Cursor.At j) p.shown p.sheet) (hpc : p.pc = l.close)
    (hb : p.machine.budget ≠ 0) :
    ∃ q, p.Turns q ∧ q.machine.budget + 1 = p.machine.budget ∧
      ((j + 1 < t.entries.length ∧ q.pc = (l.start + 1 : Nat) ∧ l.Ready t (Cursor.At (j + 1)) q.shown q.sheet) ∨
        (t.entries.length ≤ j + 1 ∧ q.pc = l.stop ∧ l.Ready t (fun _ => True) q.shown q.sheet)) := by
  have hkeeps : l.again.op.overwritesSecond = false ∧ l.again.op.keepsKnowledge = true := by
    rw [hl.again_op]
    decide
  have hfetch : Machine.fetch p.pc p.shown = .ok l.again p.shown := by
    rw [hpc]
    exact h.again
  obtain ⟨flow, c, d, hstep, hc, halike, hfinds⟩ :=
    Machine.next_settles hl (h.entered p.pc l.again)
  rw [← step_again hl p.pc] at hstep
  rcases hfinds with ⟨hlt, rfl, hat⟩ | ⟨hge, rfl⟩
  · obtain ⟨q, hturns, hq, hready, hbudget⟩ := h.turns hfetch hb hkeeps.1 hkeeps.2 hstep hc halike hat rfl
    exact ⟨q, hturns, hbudget, .inl ⟨hlt, hq, hready⟩⟩
  · obtain ⟨q, hturns, hq, hready, hbudget⟩ :=
      h.turns (Q := fun _ => True) hfetch hb hkeeps.1 hkeeps.2 hstep hc halike trivial rfl
    exact ⟨q, hturns, hbudget, .inr ⟨hge, by rw [hq, hpc]; rfl, hready⟩⟩

theorem Ready.entryAt (h : l.Ready t (Cursor.At j) p.shown p.sheet) {e : Entry} (he : t.entries[j]? = some e) :
    p.shown.entryAt? l.cursor = some e := by
  obtain ⟨c, hc, ht, -, -, -, hat⟩ := h.cursor
  simp [Machine.entryAt?, hc.2, ht, hat.isHere, hat.entry he]

/-- From the comparison on the loop goes through the entries as long as they are below the upper key. -/
theorem travels_from {p₀ : Spot} (hl : l.Formed) (hs : t.Sorted l.info) (hcompares : t.Compares l.info l.upperKey)
    (hbody : l.Spares t k p₀) (h₀ : l.Travels p₀ log p) {rest : List Entry} (hrest : t.entries.drop j = rest)
    (hne : rest ≠ []) (h : l.Ready t (Cursor.At j) p.shown p.sheet) (hpc : p.pc = (l.start + 1 : Nat))
    (hb : 1 + (k + 2) * (rest.takeWhile l.below).length ≤ p.machine.budget) :
    ∃ q, l.Travels p (rest.takeWhile l.below) q ∧ q.pc = l.stop ∧
      l.Ready t (fun _ => True) q.shown q.sheet := by
  induction rest generalizing j p log with
  | nil => exact absurd rfl hne
  | cons e rest ih =>
    have he : t.entries[j]? = some e := by
      have := congrArg List.head? hrest
      simpa [List.head?_drop] using this
    have htail : t.entries.drop (j + 1) = rest := by
      have := congrArg List.tail hrest
      simpa [List.tail_drop] using this
    obtain ⟨q, hturns, hbudget, hready, hq⟩ := turn_top hl h hpc (by omega) hs hcompares he
    by_cases hwithin : l.below e = true
    · rw [if_pos hwithin] at hq
      rw [List.takeWhile_cons_of_pos hwithin, List.length_cons, Nat.mul_succ] at hb
      rw [List.takeWhile_cons_of_pos hwithin]
      have henter : l.entering p q = [e] := by rw [entering, if_pos ⟨hpc, hq⟩, hready.entryAt he]; rfl
      have hstart := travels_of_turns (l := l) hturns
      obtain ⟨q₁, hpass, hq₁, hready₁, hbudget₁⟩ := hbody _ q j (h₀.trans hstart) hq hready (by omega)
      obtain ⟨q₂, hturns₂, hbudget₂, hcase⟩ := turn_again hl hready₁ hq₁ (by omega)
      have hleave : l.entering q₁ q₂ = [] := entering_of_ne (by rw [hq₁]; have := hl.order; omega)
      have hround : l.Travels p [e] q₂ := by
        simpa [henter, hleave] using (hstart.trans hpass).trans (travels_of_turns hturns₂)
      rcases hcase with ⟨hlt, hq₂, hready₂⟩ | ⟨hge, hq₂, hready₂⟩
      · obtain ⟨r, hrun, hr⟩ := ih (h₀.trans hround) htail (by rw [← htail]; simpa using hlt) hready₂ hq₂ (by omega)
        exact ⟨r, hround.trans hrun, hr⟩
      · have hend : rest = [] := by rw [← htail, List.drop_eq_nil_of_le hge]
        subst hend
        exact ⟨q₂, hround, hq₂, hready₂⟩
    · rw [if_neg hwithin] at hq
      rw [List.takeWhile_cons_of_neg hwithin]
      have hleave : l.entering p q = [] := if_neg fun h => by
        have hsame := hq.symm.trans h.2
        have := hl.order
        rw [stop] at hsame
        omega
      exact ⟨q, hleave ▸ travels_of_turns hturns, hq, hready.imp fun _ _ => trivial⟩

theorem between_eq (hl : l.Formed) (e : Entry) :
    l.between e = (!l.lower.misses (e.orderOf l.info l.lowerKey) && l.below e) := by
  have hlower := hl.lower_upward
  have hupper := hl.upper_upward
  revert hlower hupper
  unfold between below
  cases l.lower <;> cases l.upper <;> cases e.orderOf l.info l.lowerKey <;>
    cases e.orderOf l.info l.upperKey <;> decide

/-- The loop executes its body once for every entry between the keys, in the order of the index and for no
other entry, and then it is left. -/
theorem visits_between (hl : l.Formed) (hs : t.Sorted l.info) (hlower : t.Compares l.info l.lowerKey)
    (hupper : t.Compares l.info l.upperKey)
    (hn : t.Neighbours (Tree.orderOfRecord { cells := l.lowerKey, info := l.info, tie := l.lower.tie }))
    (hbody : l.Spares t k p) (h : l.Ready t (fun _ => True) p.shown p.sheet) (hpc : p.pc = l.start)
    (hb : 2 + (k + 2) * (t.entries.filter l.between).length ≤ p.machine.budget) :
    ∃ q, l.Travels p (t.entries.filter l.between) q ∧ q.pc = l.stop ∧
      l.Ready t (fun _ => True) q.shown q.sheet := by
  have hrange : t.entries.filter l.between =
      (t.entries.drop (t.passed l.lower l.info l.lowerKey)).takeWhile l.below := by
    rw [funext fun e => between_eq hl e]
    exact filter_between (pairwise_misses hs hlower hl.lower_upward) (pairwise_misses hs hupper hl.upper_upward)
  rw [hrange] at hb ⊢
  obtain ⟨q, hturns, hbudget, hcase⟩ := turn_seek hl h hpc (by omega) hs hlower hn
  have hleave : l.entering p q = [] := entering_of_ne (by rw [hpc]; omega)
  have hstart : l.Travels p [] q := hleave ▸ travels_of_turns hturns
  rcases hcase with ⟨hlt, hq, hready⟩ | ⟨hge, hq, hready⟩
  · obtain ⟨r, hrun, hr⟩ := travels_from hl hs hupper hbody hstart rfl (by simpa using hlt) hready hq (by omega)
    exact ⟨r, hstart.trans hrun, hr⟩
  · rw [List.drop_eq_nil_of_le hge]
    exact ⟨q, hstart, hq, hready⟩

/-- A run that gives no rows goes nowhere else than its turns lead. -/
theorem Travels.after? (h : l.Travels p log q) (hrows : ∀ n q, p.after? n = some q → q.givesRow = false) :
    ∃ n, p.after? n = some q := by
  induction h with
  | here p => exact ⟨0, rfl⟩
  | @turn p q r log hturn _ ih =>
    have hnext : p.next? = some q := by
      have : Machine.turn p.pc (some p.sheet) p.machine = _ := hturn
      rw [Spot.next?, this]
    have hafter (n : Nat) : p.after? (n + 1) = q.after? n := by rw [Spot.after?, hnext]; rfl
    obtain ⟨n, hn⟩ := ih fun n q hq => hrows (n + 1) q ((hafter n).trans hq)
    exact ⟨n + 1, (hafter n).trans hn⟩
  | @row p q r log hrow _ ih =>
    obtain ⟨m, hm, -⟩ := hrow
    have hgives : p.givesRow = true := by rw [Spot.givesRow, hm]; rfl
    rw [hrows 0 p rfl] at hgives
    cases hgives

/-- Six records with an ascending and a descending column, on two leaves and the root between them. -/
def twoLevels : Tree where
  isTable := false
  entries := [(1, 7), (2, 9), (2, 4), (3, 8), (3, 5), (4, 1)].map fun p =>
    { record := Record.ofValues 4 [.int p.1, .int p.2] }
  spread := { levels := [[⟨3, 2⟩, ⟨4, 3⟩], [⟨2, 2⟩]] }

/-- The entries behind 1 up to 3 and 8, with a jump as the body. -/
def behindOne : Scan where
  cursor := 0
  start := 0
  close := 3
  seek := ⟨.seekGT, 0, 4, 1, .int 1, 0⟩
  top := ⟨.idxGT, 0, 4, 2, .int 2, 0⟩
  again := ⟨.next, 0, 1, 0, .none, 0⟩
  lower := .gt
  upper := .gt
  lowerAt := 1
  upperAt := 2
  lowerKey := [.ofValue (.int 1)]
  upperKey := [.ofValue (.int 3), .ofValue (.int 8)]
  info := { columns := [(.binary, false), (.binary, true)], extra := 0 }

def behindOneCells : Array Cell :=
  #[{}, { flags := .onlyInt, payload := 1 }, { flags := .onlyInt, payload := 3 }, { flags := .onlyInt, payload := 8 }]

/-- A run that has just been started. -/
def behindOneStart : Spot where
  pc := 0
  sheet := (Bank.ofCells behindOneCells true true 0).holder.blank
  machine :=
    { bank :=
        { Bank.ofCells behindOneCells true true 0 with
          holder := { (Bank.ofCells behindOneCells true true 0).holder with outside := none } }
      program := #[behindOne.seek, behindOne.top, ⟨.goto, 0, 3, 0, .none, 0⟩, behindOne.again, ⟨.halt, 0, 0, 0, .none, 0⟩]
      status := { useFlagCache := true }
      database := default
      cursors := #[some { source := .own twoLevels { size := 4 }, info := some behindOne.info, isOrdered := true }]
      once := #[]
      registers := 3
      width := 0 }

theorem behindOne_formed : behindOne.Formed where
  lower_upward := rfl
  upper_upward := rfl
  order := by decide
  seek_op := rfl
  seek_cursor := rfl
  seek_exit := rfl
  seek_key := rfl
  seek_width := rfl
  top_op := rfl
  top_cursor := rfl
  top_exit := rfl
  top_key := rfl
  top_width := rfl
  top_option := .inl rfl
  again_op := rfl
  again_cursor := rfl
  again_target := rfl
  again_option := by decide
  lower_ne := by decide
  upper_ne := by decide
  written := by decide

theorem behindOne_ready : behindOne.Ready twoLevels (fun _ => True) behindOneStart.shown behindOneStart.sheet where
  seek := Machine.fetch_run rfl
  top := Machine.fetch_run rfl
  again := Machine.fetch_run rfl
  tracked := by decide
  cursor := ⟨_, ⟨le_refl _, rfl⟩, rfl, rfl, rfl, rfl, trivial⟩
  known :=
    { keeps := ⟨rfl, rfl, Bank.replicate_plain _, rfl, fun t ht => (nomatch ht), rfl, nofun⟩
      outside := rfl
      inside := rfl
      holds := fun i => Fact.holds_of_nothing (by
        show (Sheet.fact ⟨0, List.replicate 4 {}⟩ i).known = .nothing
        rw [Sheet.fact, Sheet.getD_blank]) }
  lower_inside := by decide
  upper_inside := by decide
  reach := by decide
  lower := by decide
  upper := by decide

theorem twoLevels_compares (key : List Content) (hkey : ∀ c ∈ key, c.flags = .onlyInt) :
    twoLevels.Compares behindOne.info key := by
  have hints : ∀ e ∈ twoLevels.entries, ∀ f ∈ (Record.fields? e.record).getD [],
      f.type ≠ 0 ∧ f.type ≠ 7 ∧ f.type < 12 ∧ (Content.ofValue f.value).int = f.int ∧
        (Content.ofValue f.value).flags = .onlyInt := by
    decide +kernel
  have hstored {i : Nat} {f : Field} (hf : twoLevels.Stores i f) :
      ∃ e ∈ twoLevels.entries, f ∈ (Record.fields? e.record).getD [] := by
    obtain ⟨e, he, fs, hfs, hget⟩ := hf
    exact ⟨e, he, by rw [hfs]; exact List.mem_of_getElem? hget⟩
  have hcompare {coll : Collation} {f : Field} {c : Content} {i : Nat} (hf : twoLevels.Stores i f)
      (hc : c.flags = .onlyInt) : f.compare coll c = some (compareOn Content.int (.ofValue f.value) c) := by
    obtain ⟨e, he, hmem⟩ := hstored hf
    obtain ⟨hnull, hreal, hnumber, hint, -⟩ := hints e he f hmem
    rw [Field.compare, hc, if_pos (show Flags.onlyInt.int = true from rfl), if_neg (by omega), if_neg hnull, if_neg hreal, compareOn, hint]
  refine fun i => ⟨compareOn Content.int, inferInstance, fun f g hf hg => ?_,
    fun f c hf hc => hcompare hf (hkey c (List.mem_of_getElem? hc))⟩
  obtain ⟨e, he, hmem⟩ := hstored hg
  exact hcompare hf (hints e he g hmem).2.2.2.2

theorem twoLevels_sorted : twoLevels.Sorted behindOne.info where
  whole := by decide +kernel
  before := by decide +kernel

theorem twoLevels_neighbours :
    twoLevels.Neighbours (Tree.orderOfRecord
      { cells := behindOne.lowerKey, info := behindOne.info, tie := behindOne.lower.tie }) := by
  have hsearch : twoLevels.search (Tree.orderOfRecord
      { cells := behindOne.lowerKey, info := behindOne.info, tie := behindOne.lower.tie }) false = .stopped 1 .gt := by
    decide +kernel
  rw [Tree.Neighbours, hsearch]
  refine ⟨twoLevels.entry 1, rfl, by decide +kernel, (fun h => by cases h), fun _ k e hk he => ?_⟩
  obtain rfl : k = 0 := by omega
  cases he
  decide +kernel

theorem behindOne_spares : behindOne.Spares twoLevels 1 behindOneStart := by
  have hturns : ∀ n < 16, ((behindOneStart.after? n).all fun q =>
      !q.givesRow && q.machine.program == behindOneStart.machine.program) = true := by
    decide +kernel
  have hend : (behindOneStart.after? 16).isNone = true := by decide +kernel
  have hspots (n : Nat) (q : Spot) (hq : behindOneStart.after? n = some q) :
      q.givesRow = false ∧ q.machine.program = behindOneStart.machine.program := by
    have hn : n < 16 := by
      by_contra hge
      rw [Spot.after?_of_none (Option.isNone_iff_eq_none.mp hend) (by omega)] at hq
      cases hq
    simpa [hq] using hturns n hn
  intro log q j htravels hpc hready hb
  obtain ⟨n, hn⟩ := htravels.after? fun n q hq => (hspots n q hq).1
  have hprogram := (hspots n q hn).2
  have hfetch : Machine.fetch q.pc q.shown = .ok ⟨.goto, 0, 3, 0, .none, 0⟩ q.shown := by
    rw [hpc]
    exact Machine.fetch_run (by rw [show q.shown.program = _ from hprogram]; rfl)
  obtain ⟨c, hc, -, -, -, -, hat⟩ := (hready.entered q.pc ⟨.goto, 0, 3, 0, .none, 0⟩).cursor
  have hstep : Machine.Settles (Machine.step q.pc ⟨.goto, 0, 3, 0, .none, 0⟩)
      (q.machine.entered q.pc ⟨.goto, 0, 3, 0, .none, 0⟩ (some q.sheet)) (.jump 3)
      ((q.machine.entered q.pc ⟨.goto, 0, 3, 0, .none, 0⟩ (some q.sheet)).withCursor behindOne.cursor c) :=
    ⟨_, _, by rw [hc.withCursor_self]; rfl, (hready.entered q.pc ⟨.goto, 0, 3, 0, .none, 0⟩).known, rfl, rfl⟩
  obtain ⟨q', hturn, hpc', hready', hbudget⟩ :=
    hready.turns hfetch (by omega) rfl rfl hstep hc ⟨rfl, rfl, rfl, rfl⟩ hat rfl
  refine ⟨q', ?_, hpc', hready', by omega⟩
  exact entering_of_ne (l := behindOne) (q := q') (by rw [hpc]; decide) ▸ travels_of_turns hturn

/-- The second column is descending, so 3 and 5 come behind 3 and 8. -/
theorem visits_between_behindOne :
    ∃ q, behindOne.Travels behindOneStart [twoLevels.entry 1, twoLevels.entry 2, twoLevels.entry 3] q ∧ q.pc = 4 := by
  have hlower := twoLevels_compares behindOne.lowerKey (by decide)
  have hupper := twoLevels_compares behindOne.upperKey (by decide)
  have hrange : twoLevels.entries.filter behindOne.between =
      [twoLevels.entry 1, twoLevels.entry 2, twoLevels.entry 3] := by
    decide +kernel
  obtain ⟨q, hq, hpc, -⟩ := visits_between behindOne_formed twoLevels_sorted hlower hupper twoLevels_neighbours
    behindOne_spares behindOne_ready rfl (by rw [hrange]; decide)
  exact ⟨q, hrange ▸ hq, hpc⟩

end Scan

end QueryMachine
