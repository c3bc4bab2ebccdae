import Mathlib.Logic.Relation
import NodeFeatureOperator.Proofs.Pass
import NodeFeatureOperator.Proofs.Store

/-!
# Passes in a world of others

Passes over one resource run one after the other against a store, and others write to the store
between any two calls. Any call may fail, with or without having taken effect, a deletion may be
accepted long before the object is gone, and the operator may stop at any point of a pass, which is
then over. What the others do is left open here.

## Main definitions

* `Store.Serves`, `Store.ServesAll`: how calls may be answered, and what the store is after them.
* `Attempt`: a pass under way.
* `World`: the store, the pass under way, and the desired state at the last release.
* `World.Step`, `World.Run`: what can happen next, and in the long run.

## Main results

* `Store.Serves.object?_eq_none`, `Store.Serves.guarded`: what an answered call leaves as it was.
* `World.Run.of_servesAll`: a trace of a pass whose calls are answered is a run.
-/

namespace NodeFeatureOperator

namespace Store

/-! ### The finalizer in the store -/

/-- Whether the stored resource bears the operator's finalizer. -/
def guarded (key : ResourceKey) (s : Store) : Bool :=
  (s.resource? key).any NodeFeatureDiscovery.hasFinalizer

/-- A stored resource is guarded if it has the finalizer. -/
theorem guarded_eq {s : Store} {key : ResourceKey} {n : NodeFeatureDiscovery}
    (h : s.resource? key = some n) : s.guarded key = n.hasFinalizer := by
  rw [guarded, h]
  rfl

/-- Where there is the finalizer, there is a resource with it. -/
theorem exists_of_guarded {s : Store} {key : ResourceKey} (h : s.guarded key = true) :
    ∃ n, s.resource? key = some n ∧ n.hasFinalizer = true := by
  cases hn : s.resource? key with
  | none =>
      rw [guarded, hn] at h
      cases h
  | some n => exact ⟨n, rfl, (guarded_eq hn).symm.trans h⟩

/-- The finalizer in the store is that of the stored resource. -/
theorem guarded_congr {s s' : Store} {key : ResourceKey}
    (h : s'.resource? key = s.resource? key) : s'.guarded key = s.guarded key := by
  rw [guarded, guarded, h]

/-- A resource that is waiting for its last finalizer does not have the operator's. -/
theorem not_isReleased_of_hasFinalizer {n : NodeFeatureDiscovery} (h : n.hasFinalizer = true) :
    isReleased n = false := by
  have hne : n.finalizers ≠ [] := List.ne_nil_of_mem (NodeFeatureDiscovery.hasFinalizer_iff.mp h)
  have hkept : n.finalizers.isEmpty = false := List.isEmpty_eq_false_iff.mpr hne
  rw [isReleased, Bool.and_eq_false_iff]
  exact .inr hkept

/-- Only a write without the finalizer takes the finalizer off. -/
theorem guarded_respond {s : Store} {key : ResourceKey} (call : Call) (h : s.guarded key = true) :
    (s.respond call).2.guarded key = true ∨
      ∃ m, call = .updateResource m ∧ m.hasFinalizer = false := by
  cases call with
  | updateResource m =>
      cases hm : m.hasFinalizer with
      | false => exact .inr ⟨m, rfl, hm⟩
      | true =>
          refine .inl ?_
          obtain hsame | ⟨stored, -, hafter | ⟨hreleased, -⟩⟩ := resource?_updateResource m s key
          · exact (guarded_congr hsame).trans h
          · exact (guarded_eq hafter).trans hm
          · rw [not_isReleased_of_hasFinalizer (n := replaced m stored) hm] at hreleased
            cases hreleased
  | patchStatus name ns conditions =>
      refine .inl ?_
      obtain hsame | ⟨stored, hstored, hafter⟩ :=
        resource?_patchStatus ⟨ns, name⟩ conditions s key
      · exact (guarded_congr hsame).trans h
      · rw [guarded, hstored] at h
        exact (guarded_eq hafter).trans h
  | getResource name ns => exact .inl h
  | get kind name ns => exact .inl h
  | create o =>
      have hsame : (s.respond (.create o)).2.resource? key = s.resource? key :=
        resource?_respond key (by simp) (by simp)
      exact .inl ((guarded_congr hsame).trans h)
  | update o =>
      have hsame : (s.respond (.update o)).2.resource? key = s.resource? key :=
        resource?_respond key (by simp) (by simp)
      exact .inl ((guarded_congr hsame).trans h)
  | delete kind name ns => exact .inl h

/-! ### Calls that may go wrong -/

/-- How a call may be answered, and what is stored afterwards: it takes effect and the answer
arrives, or it fails with or without having taken effect, or a deletion is accepted while the object
stays for now. -/
inductive Serves (s : Store) : (call : Call) → Except Failure call.Answer → Store → Prop
  | served (call : Call) : Serves s call (s.respond call).1 (s.respond call).2
  | lost (call : Call) (f : Failure) : Serves s call (.error f) (s.respond call).2
  | refused (call : Call) (f : Failure) : Serves s call (.error f) s
  | deferred (kind : ResourceKind) (name ns : String) : Serves s (.delete kind name ns) (.ok ()) s

namespace Serves

variable {s s' : Store} {call : Call} {answer : Except Failure call.Answer}

/-- The call took effect, or it did not. -/
theorem after (h : s.Serves call answer s') : s' = s ∨ s' = (s.respond call).2 := by
  cases h with
  | served => exact .inr rfl
  | lost => exact .inr rfl
  | refused => exact .inl rfl
  | deferred => exact .inl rfl

/-- An object appears where there was none only by its creation. -/
theorem object?_eq_none {key : ObjectKey} (h : s.Serves call answer s')
    (hkey : s.object? key = none) (hc : ∀ o, call = .create o → o.key ≠ key) :
    s'.object? key = none := by
  obtain rfl | rfl := h.after
  · exact hkey
  · exact object?_respond_eq_none hkey hc

/-- An object that is there after a call that writes no object was there before. -/
theorem object?_of_some {key : ObjectKey} {o : ManagedObject} (h : s.Serves call answer s')
    (hc : call.written? = none) (ho : s'.object? key = some o) : s.object? key = some o := by
  obtain rfl | rfl := h.after
  · exact ho
  · exact object?_of_respond hc ho

/-- Only a write without the finalizer takes the finalizer off. -/
theorem guarded {key : ResourceKey} (h : s.Serves call answer s') (hkey : s.guarded key = true) :
    s'.guarded key = true ∨ ∃ m, call = .updateResource m ∧ m.hasFinalizer = false := by
  obtain rfl | rfl := h.after
  · exact .inl hkey
  · exact guarded_respond call hkey

/-- Calls that do not write resources leave them all. -/
theorem resource?_eq (h : s.Serves call answer s') (k : ResourceKey)
    (hu : ∀ n, call ≠ .updateResource n) (hp : ∀ name ns cs, call ≠ .patchStatus name ns cs) :
    s'.resource? k = s.resource? k := by
  obtain rfl | rfl := h.after
  · rfl
  · exact resource?_respond k hu hp

/-- A look-up that is answered shows what is stored. -/
theorem object?_of_get {kind : ResourceKind} {name ns : String} {o : Option ManagedObject}
    (h : s.Serves (.get kind name ns) (.ok o) s') :
    s' = s ∧ s.object? ⟨kind, ns, name⟩ = o := by
  cases h
  exact ⟨rfl, rfl⟩

/-- A look-up can be answered with what is stored. -/
theorem of_object? {kind : ResourceKind} {name ns : String} {o : Option ManagedObject}
    (h : s.object? ⟨kind, ns, name⟩ = o) : s.Serves (.get kind name ns) (.ok o) s := by
  subst h
  exact .served _

/-- A read can be answered with the resource that is stored. -/
theorem of_resource? {name ns : String} {n : Option NodeFeatureDiscovery}
    (h : s.resource? ⟨ns, name⟩ = n) : s.Serves (.getResource name ns) (.ok n) s := by
  subst h
  exact .served _

/-- A resource that is read is the one that is stored. -/
theorem resource?_of_getResource {name ns : String} {n : Option NodeFeatureDiscovery}
    (h : s.Serves (.getResource name ns) (.ok n) s') :
    s' = s ∧ s.resource? ⟨ns, name⟩ = n := by
  cases h
  exact ⟨rfl, rfl⟩

end Serves

/-- How the calls of a trace may be answered one after the other. -/
inductive ServesAll : Store → List Exchange → Store → Prop
  | nil (s : Store) : ServesAll s [] s
  | cons {s s' s'' : Store} {e : Exchange} {t : List Exchange} :
      s.Serves e.call e.answer s' → ServesAll s' t s'' → ServesAll s (e :: t) s''

/-- Traces that are answered one after the other are answered together. -/
theorem ServesAll.append {s s' s'' : Store} {t t' : List Exchange} (h : s.ServesAll t s')
    (h' : s'.ServesAll t' s'') : s.ServesAll (t ++ t') s'' := by
  induction h with
  | nil => exact h'
  | cons hserves _ ih => exact .cons hserves (ih h')

/-- Traces that are answered together are answered one after the other. -/
theorem ServesAll.split {s s'' : Store} {t t' : List Exchange} (h : s.ServesAll (t ++ t') s'') :
    ∃ s', s.ServesAll t s' ∧ s'.ServesAll t' s'' := by
  induction t generalizing s with
  | nil => exact ⟨s, .nil s, h⟩
  | cons e t ih =>
      cases h with
      | cons hserves hrest =>
          obtain ⟨s', ht, ht'⟩ := ih hrest
          exact ⟨s', .cons hserves ht, ht'⟩

/-- An object that is there after calls that write no object was there before them. -/
theorem ServesAll.object?_of_some {s s' : Store} {t : List Exchange} {key : ObjectKey}
    {o : ManagedObject} (h : s.ServesAll t s') (ht : ∀ e ∈ t, e.call.written? = none)
    (ho : s'.object? key = some o) : s.object? key = some o := by
  induction h with
  | nil => exact ho
  | cons hserves _ ih =>
      have hlater := ih (fun e he => ht e (List.mem_cons_of_mem _ he)) ho
      exact hserves.object?_of_some (ht _ List.mem_cons_self) hlater

/-- An object that is found among calls that write no object was there before them. -/
theorem ServesAll.object?_of_found {s s' : Store} {t : List Exchange} {c : Component}
    {ns : String} {o : ManagedObject} (h : s.ServesAll t s')
    (ht : ∀ e ∈ t, e.call.written? = none) (hfound : Component.found ns c (some o) ∈ t) :
    s.object? (c.place ns) = some o := by
  obtain ⟨t₁, t₂, rfl⟩ := List.append_of_mem hfound
  obtain ⟨s₁, h₁, h₂⟩ := h.split
  cases h₂ with
  | cons hserves _ =>
      have hread : s₁.object? (c.place ns) = some o := hserves.object?_of_get.2
      exact h₁.object?_of_some (fun e he => ht e (List.mem_append_left _ he)) hread

/-- The store without the components of a list. -/
def dropped (ns : String) (cs : List Component) (s : Store) : Store :=
  cs.foldl (fun s c => s.dropObject (c.place ns)) s

/-- Dropping components leaves the resources. -/
@[simp] theorem resource?_dropped (ns : String) (cs : List Component) (s : Store)
    (k : ResourceKey) : (s.dropped ns cs).resource? k = s.resource? k := by
  induction cs generalizing s with
  | nil => rfl
  | cons c cs ih => exact ih (s.dropObject (c.place ns))

/-- Dropping components leaves the other objects. -/
theorem object?_dropped_of_notMem {ns : String} {cs : List Component} {s : Store} {c : Component}
    (h : c ∉ cs) : (s.dropped ns cs).object? (c.place ns) = s.object? (c.place ns) := by
  induction cs generalizing s with
  | nil => rfl
  | cons d cs ih =>
      have hne : c.place ns ≠ d.place ns := fun hplace =>
        h ((Component.place_injective hplace).1 ▸ List.mem_cons_self)
      exact (ih fun hc => h (List.mem_cons_of_mem d hc)).trans (object?_dropObject_of_ne s hne)

/-- Dropped components are gone. -/
theorem object?_dropped_of_mem {ns : String} {cs : List Component} {s : Store} {c : Component}
    (h : c ∈ cs) : (s.dropped ns cs).object? (c.place ns) = none := by
  induction cs generalizing s with
  | nil => cases h
  | cons d cs ih =>
      by_cases hc : c ∈ cs
      · exact ih hc
      · obtain rfl | hc' := List.mem_cons.mp h
        · exact (object?_dropped_of_notMem hc).trans (object?_dropObject_self _ s)
        · exact absurd hc' hc

/-- A store can answer the deletion of components, which drops them. -/
theorem servesAll_deleted (ns : String) (cs : List Component) (s : Store) :
    s.ServesAll (cs.map (Component.deleted ns)) (s.dropped ns cs) := by
  induction cs generalizing s with
  | nil => exact .nil s
  | cons c cs ih => exact .cons (.served _) (ih (s.dropObject (c.place ns)))

/-- A store can answer a whole teardown, after which the components are gone. -/
theorem servesAll_tornDown (spec : Spec) (ns : String) (s : Store) :
    s.ServesAll (TornDown spec ns) (s.dropped ns (teardownComponents spec)) := by
  have hfound : ∀ (cs : List Component) {s : Store}, (∀ c ∈ cs, s.object? (c.place ns) = none) →
      s.ServesAll (cs.map (Component.found ns · none)) s := by
    intro cs s h
    induction cs with
    | nil => exact .nil s
    | cons c cs ih =>
        have hc : s.object? (c.place ns) = none := h c List.mem_cons_self
        exact .cons (.of_object? hc) (ih fun d hd => h d (List.mem_cons_of_mem c hd))
  exact (servesAll_deleted ns _ s).append (hfound _ fun c hc => object?_dropped_of_mem hc)

end Store

/-! ### Worlds -/

/-- A pass under way: what it was started with, and the calls that it has made. -/
structure Attempt where
  config : Config
  time : Time
  trigger : Metadata
  past : List Exchange := []

namespace Attempt

/-- The call that the pass makes next. -/
def Asks (p : Attempt) (call : Call) : Prop :=
  (reconcile p.config p.time p.trigger).Asks p.past call

/-- The pass after an answer to its next call. -/
def heard (p : Attempt) (e : Exchange) : Attempt := { p with past := p.past ++ [e] }

/-- An exchange of the pass is the one that it just heard the answer of, or an earlier one. -/
theorem heard_past_split {p : Attempt} {e e' : Exchange} {t t' : List Exchange}
    (h : (p.heard e).past = t ++ e' :: t') :
    (t' = [] ∧ e = e') ∨ ∃ t'', t' = t'' ++ [e] ∧ p.past = t ++ e' :: t'' := by
  rcases List.eq_nil_or_concat t' with rfl | ⟨t'', last, rfl⟩
  · obtain ⟨-, he⟩ := List.append_inj' h rfl
    exact .inl ⟨rfl, (List.cons.inj he).1⟩
  · have h' : p.past ++ [e] = (t ++ e' :: t'') ++ [last] := by simpa [heard] using h
    obtain ⟨hpast, he⟩ := List.append_inj' h' rfl
    obtain rfl := (List.cons.inj he).1
    exact .inr ⟨t'', List.concat_eq_append, hpast⟩

/-- The resource that a pass began with is the one that is stored, if its reading was just answered,
or it had been read before. -/
theorem stored_or_read_before {p : Attempt} {key : ResourceKey} {n : NodeFeatureDiscovery}
    {call : Call} {answer : Except Failure call.Answer} {s s' : Store} {t : List Exchange}
    (hserves : s.Serves call answer s')
    (h : (p.heard ⟨call, answer⟩).past = ⟨.getResource key.name key.ns, .ok (some n)⟩ :: t) :
    (s' = s ∧ s.resource? key = some n) ∨
      ∃ t', t = t' ++ [⟨call, answer⟩] ∧
        p.past = ⟨.getResource key.name key.ns, .ok (some n)⟩ :: t' := by
  obtain ⟨rfl, he⟩ | hbefore := heard_past_split (t := []) h
  · obtain ⟨rfl, hanswer⟩ := Exchange.mk.inj he
    obtain rfl := eq_of_heq hanswer
    exact .inl hserves.resource?_of_getResource
  · exact .inr hbefore

end Attempt

/-- The store, the pass under way if there is one, and the desired state in the write that last took
the finalizer off. -/
structure World where
  store : Store
  pass : Option Attempt := none
  release : Option Spec := none

namespace World

/-- A world with nothing in it but a resource. -/
def start (n : NodeFeatureDiscovery) : World := { store := ({} : Store).putResource n.key n }

/-- The desired state at the last release, after a call that changed the store. -/
def releaseAfter (key : ResourceKey) (w : World) (store : Store) : Call → Option Spec
  | .updateResource m =>
    if w.store.guarded key && !store.guarded key then some m.spec else w.release
  | _ => w.release

/-- What can happen in a world: a pass over the resource begins while there is none, it makes its
next call, it is over, or others write to the store. -/
inductive Step (others : Store → Store → Prop) (key : ResourceKey) (w : World) : World → Prop
  | begin (config : Config) (time : Time) (trigger : Metadata) :
      w.pass = none → trigger.anyName = key.name → trigger.ns = some key.ns →
      Step others key w { w with pass := some ⟨config, time, trigger, []⟩ }
  | call {p : Attempt} {call : Call} {answer : Except Failure call.Answer} {store : Store} :
      w.pass = some p → p.Asks call → w.store.Serves call answer store →
      Step others key w ⟨store, some (p.heard ⟨call, answer⟩), w.releaseAfter key store call⟩
  | stop : Step others key w { w with pass := none }
  | others {store : Store} : others w.store store → Step others key w { w with store := store }

/-- Any number of steps. -/
abbrev Run (others : Store → Store → Prop) (key : ResourceKey) : World → World → Prop :=
  Relation.ReflTransGen (Step others key)

variable {others : Store → Store → Prop} {key : ResourceKey} {w : World}

/-- What can happen among others can happen among others that do more. -/
theorem Step.mono {others' : Store → Store → Prop} {w' : World}
    (hothers : ∀ s s', others s s' → others' s s') (h : Step others key w w') :
    Step others' key w w' := by
  cases h with
  | begin config time trigger hidle hname hns => exact .begin config time trigger hidle hname hns
  | call hp hasks hserves => exact .call hp hasks hserves
  | stop => exact .stop
  | others h => exact .others (hothers _ _ h)

/-- The pass under way was set off for the resource. -/
def Named (key : ResourceKey) (w : World) : Prop :=
  ∀ p, w.pass = some p → p.trigger.anyName = key.name ∧ p.trigger.ns = some key.ns

/-- Every step leaves it at that. -/
theorem Named.step {w' : World} (h : w.Named key) (hstep : Step others key w w') :
    w'.Named key := by
  intro p' hp'
  cases hstep with
  | begin config time trigger _ hname hns =>
      obtain rfl := Option.some.inj hp'
      exact ⟨hname, hns⟩
  | @call p _ _ _ hp _ _ =>
      obtain rfl := Option.some.inj hp'
      exact h p hp
  | stop => cases hp'
  | others => exact h p' hp'

/-- What holds at first and is kept by every step holds after a run. -/
theorem Run.invariant {I : World → Prop} {w' : World} (h : Run others key w w') (hw : I w)
    (hstep : ∀ {w w' : World}, I w → Step others key w w' → I w') : I w' := by
  induction h with
  | refl => exact hw
  | tail _ h ih => exact hstep ih h

/-- A pass goes through the calls of a trace if they are calls of its own and can be answered. -/
theorem Run.of_servesAll {p : Attempt} {t : List Exchange} {store : Store} {call : Call}
    (hp : w.pass = some p) (ht : w.store.ServesAll t store)
    (h : (reconcile p.config p.time p.trigger).Asks (p.past ++ t) call) :
    ∃ release, Run others key w ⟨store, some { p with past := p.past ++ t }, release⟩ := by
  generalize hs : w.store = s at ht
  induction ht generalizing w p with
  | nil s =>
      refine ⟨w.release, ?_⟩
      rw [List.append_nil, ← hs, ← hp]
  | @cons s s' s'' e t hserves _ ih =>
      have hnext : p.Asks e.call := h.asks_of_split
      have hstep : Step others key w _ := .call hp hnext (hs ▸ hserves)
      have hrest : (reconcile p.config p.time p.trigger).Asks ((p.heard e).past ++ t) call := by
        simpa [Attempt.heard] using h
      obtain ⟨release, hrun⟩ :=
        ih (w := ⟨s', some (p.heard e), w.releaseAfter key s' e.call⟩) rfl hrest rfl
      refine ⟨release, .head hstep ?_⟩
      simpa [Attempt.heard] using hrun

/-- The metadata by which a pass over a resource is set off. -/
def trigger (key : ResourceKey) : Metadata := { name := some key.name, ns := some key.ns }

/-- While there is no pass under way, one can begin and go through the calls of a trace. -/
theorem Run.of_pass (others : Store → Store → Prop) (config : Config) (time : Time)
    {t : List Exchange} {store : Store} {call : Call}
    (hidle : w.pass = none) (h : (reconcile config time (trigger key)).Asks t call)
    (ht : w.store.ServesAll t store) :
    ∃ release, Run others key w ⟨store, some ⟨config, time, trigger key, t⟩, release⟩ := by
  have hbegin : Step others key w _ := .begin config time (trigger key) hidle rfl rfl
  obtain ⟨release, hrun⟩ :=
    Run.of_servesAll (w := { w with pass := some ⟨config, time, trigger key, []⟩ }) rfl ht h
  exact ⟨release, .head hbegin hrun⟩

/-- While there is no pass under way, one can begin over a resource that neither bears the finalizer
nor is being deleted, and add it. -/
theorem Run.of_first_pass (others : Store → Store → Prop) (config : Config) (time : Time)
    {n : NodeFeatureDiscovery} (hidle : w.pass = none) (hn : w.store.resource? n.key = some n)
    (hdel : n.isDeleting = false) (hfin : n.hasFinalizer = false) :
    ∃ w', Run others n.key w w' ∧ w'.pass = none ∧
      w'.store.resource? n.key = some (n.addFinalizer.withVersion w.store.nextVersion) := by
  have hpass : (passOver config time n (trigger n.key).anyName n.key.ns).Asks []
      (.updateResource n.addFinalizer) := by
    simp only [passOver, hdel, hfin, Bool.false_eq_true, if_false]
    exact .here _ _
  have hasks : (reconcile config time (trigger n.key)).Asks
      [⟨.getResource n.key.name n.key.ns, .ok (some n)⟩] (.updateResource n.addFinalizer) :=
    asks_reconcile_of_read rfl hpass
  obtain ⟨release, hrun⟩ := Run.of_pass others config time hidle hasks
    (.cons (.of_resource? hn) (.nil w.store))
  have hkept : Store.isReleased (Store.replaced n.addFinalizer n) = false :=
    Store.not_isReleased_of_hasFinalizer (NodeFeatureDiscovery.hasFinalizer_addFinalizer n)
  exact ⟨_, (hrun.tail (.call rfl hasks (.served _))).tail .stop, rfl,
    Store.resource?_updateResource_current (m := n.addFinalizer) hn rfl hkept⟩

/-- While there is no pass under way, one can begin over a resource on its way out, find every
component gone, and come to the prune Job or to the release. -/
theorem Run.of_tornDown (others : Store → Store → Prop) (config : Config) (time : Time)
    {n : NodeFeatureDiscovery} {rest : List Exchange} {store : Store} {call : Call}
    (hidle : w.pass = none) (hread : w.store.resource? key = some n)
    (hdel : n.isDeleting = true) (hfin : n.hasFinalizer = true)
    (h : (prune config.prunePoll n key.ns).Asks rest call ∨
      ((prune config.prunePoll n key.ns).Ends rest (.ok true) ∧
        call = .updateResource n.removeFinalizer))
    (hrest : (w.store.dropped key.ns (teardownComponents n.spec)).ServesAll rest store) :
    ∃ p release, Run others key w ⟨store, some p, release⟩ ∧ p.Asks call ∧ p.past =
      ⟨.getResource key.name key.ns, .ok (some n)⟩ :: (TornDown n.spec key.ns ++ rest) := by
  have hasks := asks_reconcile_of_tornDown config time (trigger key) rfl hdel hfin h
  obtain ⟨release, hrun⟩ := Run.of_pass others config time hidle hasks
    (.cons (.of_resource? hread) ((Store.servesAll_tornDown n.spec key.ns w.store).append hrest))
  exact ⟨_, release, hrun, hasks, rfl⟩

/-- A resource on its way out that another finalizer holds, and whose labels are not to be pruned,
can be given up in one pass; the components that the teardown passes over stay. -/
theorem Run.of_release (others : Store → Store → Prop) (config : Config) (time : Time)
    {n : NodeFeatureDiscovery} (hidle : w.pass = none)
    (hread : w.store.resource? n.key = some n) (hdel : n.isDeleting = true)
    (hfin : n.hasFinalizer = true) (hprune : n.spec.pruneOnDelete = false)
    (hheld : Store.isReleased n.removeFinalizer = false) :
    ∃ w' version, Run others n.key w w' ∧ w'.release = some n.spec ∧
      w'.store.resource? n.key = some (n.removeFinalizer.withVersion version) ∧
      ∀ c ∉ teardownComponents n.spec,
        w'.store.object? (c.place n.ns) = w.store.object? (c.place n.ns) := by
  have hpruned : (prune config.prunePoll n n.key.ns).Ends [] (.ok true) := by
    rw [prune, hprune]
    exact .done _
  obtain ⟨p, release, hrun, hasks, -⟩ := Run.of_tornDown others config time hidle hread hdel
    hfin (.inr ⟨hpruned, rfl⟩) (.nil _)
  have hstored : (w.store.dropped n.key.ns (teardownComponents n.spec)).resource?
      n.removeFinalizer.key = some n := (Store.resource?_dropped _ _ _ _).trans hread
  have hguarded := (Store.guarded_eq hstored).trans hfin
  have hafter := Store.resource?_updateResource_current hstored rfl hheld
  have hfree : (Store.updateResource n.removeFinalizer _).2.guarded n.key = false :=
    (congrArg (Option.any NodeFeatureDiscovery.hasFinalizer) hafter).trans
      (NodeFeatureDiscovery.hasFinalizer_removeFinalizer n)
  refine ⟨_, _, hrun.tail (.call rfl hasks (.served _)), if_pos ?_, hafter, fun c hc => ?_⟩
  · exact Bool.and_eq_true_iff.mpr ⟨hguarded, congrArg not hfree⟩
  · exact (Store.object?_updateResource _ _ _).trans (Store.object?_dropped_of_notMem hc)

end World

end NodeFeatureOperator
