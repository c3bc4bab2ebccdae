import NodeFeatureOperator.Cluster.Store

/-!
# A store with mishaps

A store that can be told to go wrong: to fail chosen calls, to let deleted objects linger, and to
let another client write between a read and the write that follows it. It keeps a log of its calls.
Told nothing, it answers as a plain store does.

## Main definitions

* `Fault`: a failure in store for some calls.
* `Rehearsal`: the store, what it was told, and its log.
* `Rehearsal.respond`: how it answers each call.

## Main results

* `Rehearsal.respond_undisturbed`: without mishaps the answers are those of the plain store.
-/

namespace NodeFeatureOperator

/-- A failure that befalls calls of one sort, perhaps only those about one kind or name. It lets
the next `skip` of them pass and strikes the `times` calls after these. -/
structure Fault where
  verb : Call.Verb
  /-- The kind that a call has to be about; `some none` asks for a call about a resource. -/
  kind : Option (Option ResourceKind) := none
  name : Option String := none
  failure : Failure
  skip : Nat := 0
  times : Nat := 1
deriving Repr, Inhabited

namespace Fault

/-- Whether a call is of those that the fault is about. -/
def concerns (f : Fault) (c : Call) : Bool :=
  f.verb == c.verb && f.kind.all (· == c.kind?) && f.name.all (· == c.name)

/-- The failure of the first fault that strikes a call, and the faults as they are after it. -/
def strike (c : Call) : List Fault → Option Failure × List Fault
  | [] => (none, [])
  | f :: rest =>
    if f.concerns c ∧ 0 < f.times then
      if 0 < f.skip then
        let (struck, rest) := strike c rest
        (struck, { f with skip := f.skip - 1 } :: rest)
      else (some f.failure, { f with times := f.times - 1 } :: rest)
    else
      let (struck, rest) := strike c rest
      (struck, f :: rest)

end Fault

/-- A store and the mishaps in store for it. -/
structure Rehearsal where
  store : Store := {}
  faults : List Fault := []
  /-- The objects that linger when deleted: for a number of reads, or until removed. -/
  lingering : Table ObjectKey (Option Nat) := []
  /-- The objects that linger now, with the reads they have left. -/
  dying : Table ObjectKey (Option Nat) := []
  /-- The object that another client writes after its next read. -/
  contended : Option ObjectKey := none
  /-- The calls, the latest first. -/
  log : List Call := []
deriving Repr, Inhabited

namespace Rehearsal

/-- Lets a lingering object come closer to its end before a read. -/
def age (key : ObjectKey) (r : Rehearsal) : Rehearsal :=
  match Table.find? key r.dying with
  | some (some 0) =>
    { r with store := r.store.dropObject key, dying := Table.erase key r.dying }
  | some (some (left + 1)) => { r with dying := Table.insert key (some left) r.dying }
  | _ => r

/-- Reads an object; another client may write it right after. -/
def read (key : ObjectKey) (r : Rehearsal) : Option ManagedObject × Rehearsal :=
  let r := r.age key
  match r.store.object? key with
  | none => (none, r)
  | some o =>
    if r.contended = some key then
      (some o, { r with store := r.store.putObject key o, contended := none })
    else (some o, r)

/-- Deletes an object, or marks it as being deleted if it lingers. -/
def delete (key : ObjectKey) (r : Rehearsal) : Rehearsal :=
  match r.store.object? key with
  | none => r
  | some _ =>
    match Table.find? key r.lingering with
    | none => { r with store := r.store.dropObject key }
    | some reads =>
      match Table.find? key r.dying with
      | some _ => r
      | none => { r with dying := Table.insert key reads r.dying }

/-- How a call that no fault strikes is answered. -/
def answer : Program.Responder Rehearsal
  | .get kind name ns, r =>
    let (found, r) := r.read ⟨kind, ns, name⟩
    (.ok found, r)
  | .delete kind name ns, r => (.ok (), r.delete ⟨kind, ns, name⟩)
  | c, r =>
    let (answer, store) := r.store.respond c
    (answer, { r with store := store })

/-- How a call is answered: it is logged, a fault may strike it, and only then does it act. -/
def respond : Program.Responder Rehearsal := fun c r =>
  let (struck, faults) := Fault.strike c r.faults
  let r := { r with log := c :: r.log, faults := faults }
  match struck with
  | some f => (.error f, r)
  | none => answer c r

/-- Nothing is in store. -/
def Undisturbed (r : Rehearsal) : Prop :=
  r.faults = [] ∧ r.lingering = [] ∧ r.dying = [] ∧ r.contended = none

/-- Without mishaps a call is answered as the plain store answers it, and none come up. -/
theorem respond_undisturbed (c : Call) (r : Rehearsal) (h : r.Undisturbed) :
    (r.respond c).1 = (r.store.respond c).1 ∧
      (r.respond c).2.store = (r.store.respond c).2 ∧ (r.respond c).2.Undisturbed := by
  obtain ⟨store, faults, lingering, dying, contended, log⟩ := r
  obtain ⟨hf, hl, hd, hc⟩ := h
  simp only at hf hl hd hc
  subst hf hl hd hc
  cases c with
  | get kind name ns =>
    simp only [respond, Fault.strike, answer, read, age, Table.find?, Store.respond]
    cases h : store.object? ⟨kind, ns, name⟩ <;> simp [Undisturbed]
  | delete kind name ns =>
    simp only [respond, Fault.strike, answer, delete, Table.find?, Store.respond]
    cases h : store.object? ⟨kind, ns, name⟩ with
    | none =>
      have hd : store.dropObject ⟨kind, ns, name⟩ = store := by
        rw [Store.dropObject, Table.erase_of_find?_eq_none h]
      simp [Undisturbed, hd]
    | some o => simp [Undisturbed]
  | _ => exact ⟨rfl, rfl, rfl, rfl, rfl, rfl⟩

end Rehearsal

end NodeFeatureOperator
