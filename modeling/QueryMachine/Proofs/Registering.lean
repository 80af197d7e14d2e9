import Mathlib
import QueryMachine.Function.Registry
import QueryMachine.Proofs.Effects

/-!
Registered functions are found again. The number of a function is the number of keys, while the function itself
goes into a list of its own that starts with an empty place. In every history of registrations and searches the
two stay in step, so a number leads to the function that it was given to.
-/

namespace QueryMachine.Registry

structure Entry where
  name : String
  arity : Int
  kind : Func.Kind
  deriving Repr, DecidableEq, Inhabited

/-- What a registry is asked for. -/
inductive Act
  | enter (e : Entry)
  | search (ref : FuncRef)
  deriving Repr, DecidableEq, Inhabited

namespace Act

/-- The name and the number of arguments that are to be taken. -/
def key? : Act → Option (String × Int)
  | enter e => some (e.name, e.arity)
  | search _ => none

/-- The registry after the act; one that fails leaves it. -/
def perform (r : Registry) : Act → Registry
  | enter e =>
    match r.register e.name e.arity e.kind with
    | .ok (_, _, r') => r'
    | .error _ => r
  | search ref =>
    match r.find ref with
    | .ok (_, r') => r'
    | .error _ => r

def registers (r : Registry) : Act → Bool
  | enter e => (r.register e.name e.arity e.kind).toBool
  | search _ => false

end Act

def performAll (acts : List Act) (r : Registry) : Registry := acts.foldl Act.perform r

/-- How many of the acts register a function. -/
def accepted : List Act → Registry → Nat
  | [], _ => 0
  | a :: acts, r => (a.registers r).toNat + accepted acts (a.perform r)

/-- What tells apart the functions that can be registered. -/
def keyOf (f : Func) : String × Int := (f.name, f.arity)

/-- The keys and the list hold the same functions `fs`, in the same order. -/
structure Holds (r : Registry) (fs : List Func) : Prop where
  funcs : r.funcs = none :: fs.map some
  keys : r.keys = fs.map keyOf
  made : ∀ f ∈ fs, f.serial < r.made

variable {r : Registry} {fs : List Func} {e : Entry}

theorem holds_empty : Holds {} [] := ⟨rfl, rfl, by simp⟩

def Entry.func (e : Entry) (r : Registry) : Func := ⟨r.made, e.name, e.arity, e.kind⟩

def including (r : Registry) (f : Func) : Registry :=
  { keys := r.keys ++ [keyOf f], funcs := r.funcs ++ [some f], made := r.made + 1 }

theorem Holds.including (h : r.Holds fs) (e : Entry) : (r.including (e.func r)).Holds (fs ++ [e.func r]) := by
  refine ⟨by simp [Registry.including, h.funcs], by simp [Registry.including, h.keys], fun f hf => ?_⟩
  rcases List.mem_append.mp hf with hf | hf
  · exact Nat.lt_succ_of_lt (h.made f hf)
  · rw [List.mem_singleton.mp hf]
    exact Nat.lt_succ_self _

theorem Holds.register_taken (h : r.Holds fs) (hk : (e.name, e.arity) ∈ fs.map keyOf) :
    r.register e.name e.arity e.kind = .error (.assertion "") := by
  rw [register, if_pos (by rw [h.keys]; exact List.contains_iff_mem.mpr hk)]

theorem Holds.register_free (h : r.Holds fs) (hk : (e.name, e.arity) ∉ fs.map keyOf) :
    r.register e.name e.arity e.kind = .ok (fs.length + 1, e.func r, r.including (e.func r)) := by
  rw [register, if_neg (by rwa [h.keys, List.contains_iff_mem])]
  simp [make, Registry.including, Entry.func, keyOf, h.keys]

theorem find_eq_ok {ref : FuncRef} {f : Func} {r' : Registry} (h : r.find ref = .ok (f, r')) :
    r' = r ∨ r' = { r with made := r.made + 1 } := by
  simp only [find, require, make, bind, Except.bind, pure, Except.pure] at h
  grind

theorem Holds.perform (h : r.Holds fs) (a : Act) : ∃ gs, (a.perform r).Holds (fs ++ gs) ∧
    gs.length = (a.registers r).toNat ∧ ∀ k, k ∈ (fs ++ gs).map keyOf ↔ k ∈ fs.map keyOf ∨ a.key? = some k := by
  cases a with
  | enter e =>
    by_cases hk : (e.name, e.arity) ∈ fs.map keyOf
    · refine ⟨[], ?_, ?_, fun k => ?_⟩
      · simpa [Act.perform, h.register_taken hk] using h
      · simp [Act.registers, h.register_taken hk, Except.toBool]
      · simp only [List.append_nil, Act.key?, Option.some.injEq]
        exact ⟨.inl, fun hk' => hk'.elim id fun hk' => hk' ▸ hk⟩
    · refine ⟨[e.func r], ?_, ?_, fun k => ?_⟩
      · simpa [Act.perform, h.register_free hk] using h.including e
      · simp [Act.registers, h.register_free hk, Except.toBool]
      · simp [Act.key?, keyOf, Entry.func, eq_comm]
  | search ref =>
    refine ⟨[], ?_, rfl, fun k => by simp [Act.key?]⟩
    rw [List.append_nil, Act.perform]
    split
    · rename_i f r' hf
      rcases find_eq_ok hf with rfl | rfl
      · exact h
      · exact ⟨h.funcs, h.keys, fun f hf => Nat.lt_succ_of_lt (h.made f hf)⟩
    · exact h

theorem Holds.performAll (h : r.Holds fs) (acts : List Act) : ∃ gs, (performAll acts r).Holds (fs ++ gs) ∧
    gs.length = accepted acts r ∧
    ∀ k, k ∈ (fs ++ gs).map keyOf ↔ k ∈ fs.map keyOf ∨ k ∈ acts.filterMap Act.key? := by
  induction acts generalizing r fs with
  | nil => exact ⟨[], by rwa [List.append_nil], rfl, fun k => by simp⟩
  | cons a acts ih =>
    obtain ⟨gs, hone, hlength, hkeys⟩ := h.perform a
    obtain ⟨gs', hall, hlength', hkeys'⟩ := ih hone
    refine ⟨gs ++ gs', by rwa [← List.append_assoc], by simp [accepted, hlength, hlength'], fun k => ?_⟩
    rw [← List.append_assoc, hkeys', hkeys, List.filterMap_cons]
    cases a.key? with
    | none => simp
    | some k' => simp [or_assoc, eq_comm]

theorem Holds.atIndex {f : Func} {gs : List Func} (h : r.Holds (fs ++ f :: gs)) :
    r.atIndex ((fs.length + 1 : Nat) : Int) = .ok (some f) := by
  have hlength : fs.length + 1 < r.funcs.length := by simp [h.funcs]
  have hplace : wrapIndex? r.funcs.length ((fs.length + 1 : Nat) : Int) = some (fs.length + 1) :=
    wrapIndex?_of_lt (Int.natCast_nonneg _) (Int.ofNat_lt.mpr hlength)
  simp only [Registry.atIndex, hplace]
  simp [h.funcs]

theorem find_aggregate {ref : FuncRef} {f : Func} {a : Aggregate} (hf : r.atIndex ref.user = .ok (some f))
    (hkind : f.kind = .aggregate a) (hstep : ref.step = 1) (hfinal : ref.final = 1) : r.find ref = .ok (f, r) := by
  simp [find, hstep, hfinal, hf, hkind, require, bind, Except.bind, pure, Except.pure]

theorem find_scalar {ref : FuncRef} {f : Func} {s : Scalar} (hf : r.atIndex ref.user = .ok (some f))
    (hkind : f.kind = .scalar s) (hfunc : ref.func = 1) (hstep : ref.step = 0) (hfinal : ref.final = 0) :
    r.find ref = .ok (f, r) := by
  simp [find, hstep, hfinal, hfunc, hf, hkind, Func.isScalar, require, bind, Except.bind, pure, Except.pure]

theorem find_builtin {ref : FuncRef} (hstep : ref.step ≠ 1) (hfunc : ref.func ≠ 1) :
    r.find ref = .ok (⟨r.made, ref.name, ref.arity, .builtin⟩, { r with made := r.made + 1 }) := by
  rw [find, if_neg hstep, if_neg hfunc]
  rfl

/-- How a program refers to a function of this kind that was registered. -/
def Fits (ref : FuncRef) : Func.Kind → Prop
  | .scalar _ => ref.func = 1 ∧ ref.step = 0 ∧ ref.final = 0
  | .aggregate _ => ref.step = 1 ∧ ref.final = 1
  | .general | .builtin => False

theorem find_of_fits {ref : FuncRef} {f : Func} (hf : r.atIndex ref.user = .ok (some f)) (h : Fits ref f.kind) :
    r.find ref = .ok (f, r) := by
  cases hkind : f.kind with
  | scalar s =>
    rw [hkind] at h
    exact find_scalar hf hkind h.1 h.2.1 h.2.2
  | aggregate a =>
    rw [hkind] at h
    exact find_aggregate hf hkind h.1 h.2
  | general | builtin =>
    rw [hkind] at h
    exact h.elim

/-- Along every history, a name with a number of arguments that was asked for before is refused, and the registry
stays as it is. Any other entry becomes a function of its own and gets the number that comes next; whatever is done
later, the number leads to that function. What does not refer to a registered function is a built-in one. -/
theorem found_by_number (before later : List Act) (e : Entry) :
    (if (e.name, e.arity) ∈ before.filterMap Act.key? then
      (performAll before {}).register e.name e.arity e.kind = .error (.assertion "") ∧
        (Act.enter e).perform (performAll before {}) = performAll before {}
    else
      ∃ f r', (performAll before {}).register e.name e.arity e.kind = .ok (accepted before {} + 1, f, r') ∧
        f.name = e.name ∧ f.arity = e.arity ∧ f.kind = e.kind ∧
        (∀ g, some g ∈ (performAll before {}).funcs → g.serial ≠ f.serial) ∧
        ∀ ref : FuncRef, ref.user = (accepted before {} + 1 : Nat) → Fits ref e.kind →
          (performAll (before ++ .enter e :: later) {}).find ref =
            .ok (f, performAll (before ++ .enter e :: later) {})) ∧
    ∀ ref : FuncRef, ref.step ≠ 1 → ref.func ≠ 1 →
      ∃ f r', (performAll before {}).find ref = .ok (f, r') ∧
        f.kind = .builtin ∧ f.name = ref.name ∧ f.arity = ref.arity := by
  obtain ⟨fs, hfs, hlength, hkeys⟩ := holds_empty.performAll before
  simp only [List.nil_append, List.map_nil, List.not_mem_nil, false_or] at hfs hkeys
  refine ⟨?_, fun ref hstep hfunc => ⟨_, _, find_builtin hstep hfunc, rfl, rfl, rfl⟩⟩
  split
  · rename_i hk
    have htaken := hfs.register_taken (e := e) ((hkeys _).mpr hk)
    exact ⟨htaken, by simp only [Act.perform, htaken]⟩
  · rename_i hk
    have hfree := hfs.register_free (e := e) (mt (hkeys _).mp hk)
    refine ⟨e.func _, _, by rw [hfree, hlength], rfl, rfl, rfl, fun g hg => ?_, fun ref huser hfits => ?_⟩
    · simp only [hfs.funcs, List.mem_cons, reduceCtorEq, List.mem_map, Option.some.injEq, exists_eq_right, false_or] at hg
      exact Nat.ne_of_lt (hfs.made g hg)
    · have hentered : performAll (before ++ .enter e :: later) {} =
          performAll later ((performAll before {}).including (e.func (performAll before {}))) := by
        rw [performAll, List.foldl_append, List.foldl_cons]
        show performAll later ((Act.enter e).perform (performAll before {})) = _
        simp only [Act.perform, hfree]
      -- Later functions come behind this one, so that its place in the list stays.
      obtain ⟨gs, hlater, -⟩ := (hfs.including e).performAll later
      rw [List.append_assoc, List.singleton_append] at hlater
      rw [hentered]
      exact find_of_fits (by rw [huser, ← hlength]; exact hlater.atIndex) hfits

end QueryMachine.Registry
