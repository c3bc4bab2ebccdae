import Mathlib.Logic.Relation
import NodeFeatureOperator.Proofs.Amendment
import NodeFeatureOperator.Proofs.Release
import NodeFeatureOperator.Proofs.World

/-!
# The departure of a resource

A resource that is being deleted leaves in a fixed number of passes, on a store that answers every
call, whatever else it holds. Without pruning one pass is enough. With pruning the first pass leaves
the resource with its finalizer and a Job; after that only the status of the Job decides what a pass
does, and the passes that wait for it, or find it failed, change nothing.

## Main definitions

* `Passes`: what any pass over a resource does on a store.
* `Departure.Step`: what happens after the first pass: further passes, and reports of the Job.
* `Departure.Pruning`, `Departure.Released`: the two states in which these leave the store.

## Main results

* `performs_prune_*`: what a step of pruning does for each status of the Job.
* `Departure.Pruning.step`, `Departure.Released.step`: what each step leaves.
* `teardown_completes`: the whole departure.
-/

namespace NodeFeatureOperator

open Component (deleted found)

variable {n : NodeFeatureDiscovery} {ns : String} {s s' : Store} {t : List Exchange}

/-! ### The parts of a teardown -/

namespace Program

variable {α β : Type}

/-- A look at the clock takes no time. -/
theorem performs_clock {next : Duration → Program α} {a : α}
    (h : ∀ now, (next now).Performs s t a s') : (Program.clock next).Performs s t a s' :=
  fun time => h time time

/-- A program that ends with what it makes of the value of another one adds no calls. -/
theorem Performs.bind_done {p : Program α} {f : α → Program β} {a : α} {b : β}
    (hp : p.Performs s t a s') (hf : f a = .done b) : (p.bind f).Performs s t b s' := by
  have hend : (f a).Performs s' [] b s' := hf ▸ performs_done b s'
  have hbind := hp.bind hend
  rwa [List.append_nil] at hbind

end Program

namespace Store

/-- Dropping an object that does not exist changes nothing. -/
theorem dropObject_of_absent {key : ObjectKey} (h : s.object? key = none) :
    s.dropObject key = s := by
  rw [dropObject, Table.erase_of_find?_eq_none h]

/-- Dropping components that do not exist changes nothing. -/
theorem dropped_of_absent {cs : List Component}
    (h : ∀ c ∈ cs, s.object? (Component.place c ns) = none) : s.dropped ns cs = s := by
  induction cs with
  | nil => rfl
  | cons c cs ih =>
      have hc : s.dropObject (c.place ns) = s := dropObject_of_absent (h c List.mem_cons_self)
      rw [dropped, List.foldl_cons, hc]
      exact ih fun d hd => h d (List.mem_cons_of_mem c hd)

/-- Dropping components is not counted as a write. -/
@[simp] theorem nextVersion_dropped (ns : String) (cs : List Component) (s : Store) :
    (s.dropped ns cs).nextVersion = s.nextVersion := by
  induction cs generalizing s with
  | nil => rfl
  | cons c cs ih => exact ih (s.dropObject (c.place ns))

/-- Dropping components leaves the objects at other places. -/
theorem object?_dropped_of_ne {cs : List Component} {key : ObjectKey}
    (h : ∀ c ∈ cs, Component.place c ns ≠ key) : (s.dropped ns cs).object? key = s.object? key := by
  induction cs generalizing s with
  | nil => rfl
  | cons c cs ih =>
      have hne : key ≠ c.place ns := (h c List.mem_cons_self).symm
      have hrest := ih (s := s.dropObject (c.place ns)) fun d hd => h d (List.mem_cons_of_mem c hd)
      exact hrest.trans (object?_dropObject_of_ne s hne)

/-- An update of a resource that was made from the stored version is accepted. It replaces the
resource, unless that was only waiting for its last finalizer, and touches nothing else. -/
theorem updateResource_of_current {m stored : NodeFeatureDiscovery}
    (h : s.resource? m.key = some stored)
    (hversion : stored.metadata.resourceVersion = m.metadata.resourceVersion) :
    ∃ s', s.updateResource m = (.ok ((replaced m stored).withVersion s.nextVersion), s') ∧
      (∀ k, s'.object? k = s.object? k) ∧
      (s'.resource? m.key = if isReleased (replaced m stored) then none
        else some ((replaced m stored).withVersion s.nextVersion)) ∧
      ∀ k, k ≠ m.key → s'.resource? k = s.resource? k := by
  have hput := resource?_putResource_self m.key (replaced m stored) s
  have hother : ∀ k, k ≠ m.key →
      (s.putResource m.key (replaced m stored)).resource? k = s.resource? k :=
    fun k hk => resource?_putResource_of_ne _ s hk
  rw [updateResource, h]
  cases hreleased : isReleased (replaced m stored) with
  | false =>
      refine ⟨s.putResource m.key (replaced m stored), ?_, fun _ => rfl, hput, hother⟩
      simp only [if_pos hversion]
      exact if_neg (Bool.eq_false_iff.mp hreleased)
  | true =>
      let after := s.putResource m.key (replaced m stored)
      refine ⟨{ after with resources := Table.erase m.key after.resources }, ?_, fun _ => rfl, ?_,
        fun k hk => ?_⟩
      · simp only [if_pos hversion]
        exact if_pos hreleased
      · exact Table.find?_erase_self _ _
      · exact (Table.find?_erase_of_ne _ hk).trans (hother k hk)

end Store

/-- A loop of deletions drops the components. -/
theorem performs_deleteEach (ns : String) (cs : List Component) (s : Store) :
    (deleteEach ns cs).Performs s (cs.map (deleted ns)) [] (s.dropped ns cs) := by
  induction cs generalizing s with
  | nil => exact Program.performs_done _ s
  | cons c cs ih =>
      have hserved : s.respond (.delete c.kind c.name ns) = (.ok (), s.dropObject (c.place ns)) :=
        rfl
      exact Program.performs_call hserved (ih (s.dropObject (c.place ns)))

/-- A search for components that do not exist finds none. -/
theorem performs_existing {cs : List Component}
    (h : ∀ c ∈ cs, s.object? (Component.place c ns) = none) :
    (existing ns cs).Performs s (cs.map (found ns · none)) (.ok []) s := by
  induction cs with
  | nil => exact Program.performs_done _ s
  | cons c cs ih =>
      have hserved : s.respond (.get c.kind c.name ns) = (.ok none, s) :=
        congrArg (fun o => (Except.ok o, s)) (h c List.mem_cons_self)
      have hrest := ih fun d hd => h d (List.mem_cons_of_mem c hd)
      exact Program.performs_call hserved (hrest.bind_done rfl)

/-! ### Pruning -/

/-- Nothing is pruned where it is not asked for. -/
theorem performs_prune_off (poll : PollConfig) (hoff : n.spec.pruneOnDelete = false) (ns : String)
    (s : Store) : (prune poll n ns).Performs s [] (.ok true) s := by
  rw [prune, hoff]
  exact Program.performs_done _ s

/-- Where there is no prune Job, it is created. -/
theorem performs_prune_start (poll : PollConfig) (hon : n.spec.pruneOnDelete = true)
    {job : ManagedObject} (hjob : Component.prune.desired n ns = .ok job)
    (habsent : s.object? (Component.prune.place ns) = none) :
    (prune poll n ns).Performs s [found ns .prune none, ⟨.create job, .ok ()⟩] (.ok false)
      (s.putObject (Component.prune.place ns) job) := by
  have hkey : job.key = Component.prune.place ns := Component.desired_key hjob
  have hserved : s.respond (.get Component.prune.kind Component.prune.name ns) = (.ok none, s) :=
    congrArg (fun o => (Except.ok o, s)) habsent
  have hcreated : s.respond (.create job) =
      (.ok (), s.putObject (Component.prune.place ns) job) := by
    rw [← hkey]
    exact Store.create_of_absent (hkey ▸ habsent)
  rw [prune, if_pos hon]
  refine Program.performs_call hserved ?_
  simp only [Program.bind, startPrune, hjob]
  exact Program.performs_call hcreated (Program.performs_done _ _)

section Job

variable {o : ManagedObject} {job : Workload}

/-- A step of pruning that finds the Job follows its status. -/
theorem performs_prune_follow (poll : PollConfig) (hon : n.spec.pruneOnDelete = true)
    (ho : s.object? (Component.prune.place ns) = some o) (hjob : o.content = .job job)
    {r : Except Failure Bool} (h : (followPrune poll ns job.status).Performs s t r s') :
    (prune poll n ns).Performs s (found ns .prune (some o) :: t) r s' := by
  have hserved : s.respond (.get Component.prune.kind Component.prune.name ns) =
      (.ok (some o), s) := congrArg (fun o => (Except.ok o, s)) ho
  rw [prune, if_pos hon]
  refine Program.performs_call hserved ?_
  simp only [Program.bind, hjob]
  exact h

/-- A Job that has failed is left, and reported. -/
theorem performs_followPrune_failed (poll : PollConfig) (ns : String) (s : Store)
    {status : Option Json} (hfailed : JobState.isFailed status = true) :
    (followPrune poll ns status).Performs s [] (.error (.pruneJobFailed ns Component.prune.name
      ((JobState.failureMessage? status).getD "job failed"))) s := by
  rw [followPrune, if_pos hfailed]
  exact Program.performs_done _ s

/-- A Job that has neither failed nor completed is waited for. -/
theorem performs_followPrune_running (poll : PollConfig) (ns : String) (s : Store)
    {status : Option Json} (hfailed : JobState.isFailed status = false)
    (hcomplete : JobState.isComplete status = false) :
    (followPrune poll ns status).Performs s [] (.ok false) s := by
  rw [followPrune, hfailed, hcomplete]
  exact Program.performs_done _ s

/-- A Job that has completed and not failed is deleted, and seen to be gone at once. -/
theorem performs_followPrune_complete (poll : PollConfig) (ns : String) (s : Store)
    {status : Option Json} (hfailed : JobState.isFailed status = false)
    (hcomplete : JobState.isComplete status = true) :
    (followPrune poll ns status).Performs s [deleted ns .prune, found ns .prune none] (.ok true)
      (s.dropObject (Component.prune.place ns)) := by
  have hdeleted : s.respond (.delete Component.prune.kind Component.prune.name ns) =
      (.ok (), s.dropObject (Component.prune.place ns)) := rfl
  have hgone : (s.dropObject (Component.prune.place ns)).respond
      (.get Component.prune.kind Component.prune.name ns) =
      (.ok none, s.dropObject (Component.prune.place ns)) :=
    congrArg (fun o => (Except.ok o, s.dropObject (Component.prune.place ns)))
      (Store.object?_dropObject_self _ s)
  have hwait : (waitUntil poll "prune job deletion" fun _ => pruneGone ns).Performs
      (s.dropObject (Component.prune.place ns)) [found ns .prune none] (.ok ())
      (s.dropObject (Component.prune.place ns)) :=
    Program.performs_clock fun _ => Program.performs_call hgone (Program.performs_done _ _)
  rw [followPrune, hfailed, hcomplete]
  exact Program.performs_call hdeleted (hwait.bind_done rfl)

end Job

/-! ### Passes over a resource on its way out -/

/-- Any pass over the resource under a key, at whatever time and whatever sets it off: on the store
`s` it makes the exchanges of `t`, its outcome depends on the timing of the controller at most, and
it leaves the store `s'`. -/
def Passes (key : ResourceKey) (s : Store) (t : List Exchange)
    (outcome : Config → Except Failure Action) (s' : Store) : Prop :=
  ∀ config time trigger, trigger.ns = some key.ns → Metadata.anyName trigger = key.name →
    (reconcile config time trigger).Performs s t (outcome config) s'

/-- The reading of the resource under a key, with what was read. -/
def readOf (key : ResourceKey) (n? : Option NodeFeatureDiscovery) : Exchange :=
  ⟨.getResource key.name key.ns, .ok n?⟩

/-- A resource on its way out: it names the key under which it is stored, is being deleted, and
bears the finalizer. -/
structure Departing (key : ResourceKey) (n : NodeFeatureDiscovery) : Prop where
  keyed : n.key = key
  deleting : n.isDeleting = true
  finalizer : n.hasFinalizer = true

/-- What a pass leaves that gives the resource up: some components are gone, and the resource has
lost the operator's finalizer, or has gone too if that was its last one. All else is as it was. -/
structure LetGo (key : ResourceKey) (n : NodeFeatureDiscovery) (cs : List Component)
    (s s' : Store) : Prop where
  gone : ∀ c ∈ cs, s'.object? (c.place key.ns) = none
  kept : ∀ k, (∀ c ∈ cs, c.place key.ns ≠ k) → s'.object? k = s.object? k
  resource : s'.resource? key = if Store.isReleased n.removeFinalizer then none
    else some (n.removeFinalizer.withVersion s.nextVersion)
  others : ∀ k, k ≠ key → s'.resource? k = s.resource? k

section Departures

variable {key : ResourceKey} {outcome : Config → Except Failure Action}

/-- A pass over a resource that is being deleted does what its teardown does. -/
theorem passes_of_finalize (hn : s.resource? key = some n) (hdel : n.isDeleting = true)
    (h : ∀ config, (finalize config n key.ns).Performs s t (outcome config) s') :
    Passes key s (readOf key (some n) :: t) outcome s' := by
  intro config time trigger hns hname
  have hserved : s.respond (.getResource key.name key.ns) = (.ok (some n), s) := by
    simp only [Store.respond]
    rw [← hn]
  rw [reconcile, hns, hname]
  refine Program.performs_call hserved ?_
  simp only [Program.bind, passOver, hdel, if_true]
  exact h config

/-- A teardown finds the components gone that it has deleted, and goes on with pruning. -/
theorem performs_finalize {config : Config} (hfin : n.hasFinalizer = true) {ns : String}
    {pruning rest : List Exchange} {r : Except Failure Bool} {a : Except Failure Action}
    {s₁ : Store} (hprune : (prune config.prunePoll n ns).Performs
      (s.dropped ns (teardownComponents n.spec)) pruning r s₁)
    (hrest : Program.Performs (match r with
      | .error f => pure (.error f)
      | .ok false => pure (.ok (.requeue config.prunePoll.interval))
      | .ok true => do
        match ← Program.request (.updateResource n.removeFinalizer) with
        | .error f => pure (.error f)
        | .ok _ => pure (.ok .awaitChange)) s₁ rest a s') :
    (finalize config n ns).Performs s (TornDown n.spec ns ++ (pruning ++ rest)) a s' := by
  have hdeletion : (deleteComponents n ns).Performs s
      ((teardownComponents n.spec).map (deleted ns)) (.ok ())
      (s.dropped ns (teardownComponents n.spec)) :=
    (performs_deleteEach ns _ s).bind_done rfl
  have hremaining : (remainingComponents n ns).Performs (s.dropped ns (teardownComponents n.spec))
      ((teardownComponents n.spec).map (found ns · none)) (.ok [])
      (s.dropped ns (teardownComponents n.spec)) :=
    performs_existing fun c hc => Store.object?_dropped_of_mem hc
  rw [finalize, if_pos hfin, TornDown, List.append_assoc]
  exact hdeletion.bind (hremaining.bind (hprune.bind hrest))

/-- A pass gives up a resource whose pruning is done. -/
theorem exists_passes_letGo (hn : s.resource? key = some n) (hdeparting : Departing key n)
    {pruning : List Exchange} (s₁ : Store)
    (hresource : ∀ k, s₁.resource? k = s.resource? k) (hrevision : s₁.nextVersion = s.nextVersion)
    (hprune : ∀ poll, (prune poll n key.ns).Performs
      (s.dropped key.ns (teardownComponents n.spec)) pruning (.ok true) s₁) :
    ∃ s', Passes key s (readOf key (some n) :: (TornDown n.spec key.ns ++ (pruning ++
        [⟨.updateResource n.removeFinalizer,
          .ok (n.removeFinalizer.withVersion s.nextVersion)⟩]))) (fun _ => .ok .awaitChange) s' ∧
      (∀ k, s'.object? k = s₁.object? k) ∧
      (s'.resource? key = if Store.isReleased n.removeFinalizer then none
        else some (n.removeFinalizer.withVersion s.nextVersion)) ∧
      ∀ k, k ≠ key → s'.resource? k = s.resource? k := by
  have hremoved : n.removeFinalizer.key = key := hdeparting.keyed
  have hstored : s₁.resource? n.removeFinalizer.key = some n := by
    rw [hremoved, hresource, hn]
  obtain ⟨s', hupdate, hobjects, hafter, hothers⟩ := Store.updateResource_of_current hstored rfl
  rw [hremoved] at hafter hothers
  rw [hrevision] at hupdate hafter
  refine ⟨s', passes_of_finalize hn hdeparting.deleting fun config => ?_, hobjects, hafter,
    fun k hk => (hothers k hk).trans (hresource k)⟩
  refine performs_finalize hdeparting.finalizer (hprune config.prunePoll) ?_
  exact Program.performs_call hupdate (Program.performs_done _ s')

/-! ### After the first pass -/

namespace Departure

/-- What can happen to a resource on its way out: any pass over it, and a report of the status of
its prune Job by whoever runs that. -/
inductive Step (key : ResourceKey) (s : Store) : Store → Prop
  | pass (config : Config) (time : Time) (trigger : Metadata) (now : Duration) :
      trigger.ns = some key.ns → trigger.anyName = key.name →
      Step key s ((reconcile config time trigger).run Store.respond s now).2.1
  | report {o : ManagedObject} {job : Workload} (status : Option Json) :
      s.object? (Component.prune.place key.ns) = some o → o.content = .job job →
      Step key s (s.putObject (Component.prune.place key.ns)
        { o with content := .job { job with status := status } })

/-- What can happen in the long run. -/
abbrev Run (key : ResourceKey) : Store → Store → Prop := Relation.ReflTransGen (Step key)

/-- A resource on its way out waits for its prune Job: it is stored as it was, and its components
are gone. -/
structure Pruning (key : ResourceKey) (n : NodeFeatureDiscovery) (o : ManagedObject)
    (job : Workload) (s : Store) : Prop extends Departing key n where
  asked : n.spec.pruneOnDelete = true
  resource : s.resource? key = some n
  components : ∀ c ∈ teardownComponents n.spec, s.object? (c.place key.ns) = none
  stored : s.object? (Component.prune.place key.ns) = some o
  content : o.content = .job job

/-- The operator has given the resource up: it is gone, or is being deleted without the operator's
finalizer. -/
def Released (key : ResourceKey) (s : Store) : Prop :=
  ∀ m, s.resource? key = some m → m.isDeleting = true ∧ m.hasFinalizer = false

/-- A pass leaves what it is known to leave. -/
theorem passes_run (h : Passes key s t outcome s') {config : Config} {time : Time}
    {trigger : Metadata} (now : Duration) (hns : trigger.ns = some key.ns)
    (hname : trigger.anyName = key.name) :
    ((reconcile config time trigger).run Store.respond s now).2.1 = s' := by
  rw [(h config time trigger hns hname now).1]

/-- A resource that was given up is released. -/
theorem released_of_letGo (hdel : n.isDeleting = true) {version : String}
    (h : s.resource? key = if Store.isReleased n.removeFinalizer then none
      else some (n.removeFinalizer.withVersion version)) : Released key s := by
  intro m hm
  rw [h] at hm
  split at hm
  · cases hm
  · obtain rfl := Option.some.inj hm
    exact ⟨hdel, NodeFeatureDiscovery.hasFinalizer_removeFinalizer n⟩

/-- A pass over a released resource reads it, and that is all. -/
theorem Released.passes (h : Released key s) :
    Passes key s [readOf key (s.resource? key)] (fun _ => .ok .awaitChange) s := by
  intro config time trigger hns hname
  have hserved : s.respond (.getResource key.name key.ns) = (.ok (s.resource? key), s) := rfl
  rw [reconcile, hns, hname]
  refine Program.performs_call hserved ?_
  cases hm : s.resource? key with
  | none => exact Program.performs_done _ s
  | some m =>
      obtain ⟨hdel, hfin⟩ := h m hm
      simp only [Program.bind, passOver, hdel, if_true, finalize, hfin, Bool.false_eq_true,
        if_false]
      exact Program.performs_done _ s

/-- A released resource stays released. -/
theorem Released.step (h : Released key s) (hstep : Step key s s') : Released key s' := by
  cases hstep with
  | pass config time trigger now hns hname =>
      rw [passes_run h.passes now hns hname]
      exact h
  | report status _ _ => exact h

section Pruning

variable {o : ManagedObject} {job : Workload}

/-- What a teardown deletes is gone already. -/
theorem Pruning.dropped_eq (h : Pruning key n o job s) :
    s.dropped key.ns (teardownComponents n.spec) = s :=
  Store.dropped_of_absent h.components

/-- A pass finds the Job and follows its status. -/
theorem Pruning.performs_prune (h : Pruning key n o job s) {poll : PollConfig}
    {r : Except Failure Bool} (hfollow : (followPrune poll key.ns job.status).Performs s t r s') :
    (prune poll n key.ns).Performs (s.dropped key.ns (teardownComponents n.spec))
      (found key.ns .prune (some o) :: t) r s' := by
  rw [h.dropped_eq]
  exact performs_prune_follow poll h.asked h.stored h.content hfollow

/-- While the Job has neither failed nor completed, a pass changes nothing and comes again. -/
theorem Pruning.passes_running (h : Pruning key n o job s)
    (hfailed : JobState.isFailed job.status = false)
    (hcomplete : JobState.isComplete job.status = false) :
    Passes key s
      (readOf key (some n) :: (TornDown n.spec key.ns ++ [found key.ns .prune (some o)]))
      (fun config => .ok (.requeue config.prunePoll.interval)) s := by
  refine passes_of_finalize h.resource h.deleting fun config => ?_
  have hprune := h.performs_prune
    (performs_followPrune_running config.prunePoll key.ns s hfailed hcomplete)
  exact performs_finalize h.finalizer hprune (Program.performs_done _ s)

/-- Once the Job has failed, a pass changes nothing and fails. -/
theorem Pruning.passes_failed (h : Pruning key n o job s)
    (hfailed : JobState.isFailed job.status = true) :
    Passes key s
      (readOf key (some n) :: (TornDown n.spec key.ns ++ [found key.ns .prune (some o)]))
      (fun _ => .error (.pruneJobFailed key.ns Component.prune.name
        ((JobState.failureMessage? job.status).getD "job failed"))) s := by
  refine passes_of_finalize h.resource h.deleting fun config => ?_
  have hprune := h.performs_prune
    (performs_followPrune_failed config.prunePoll key.ns s hfailed)
  exact performs_finalize h.finalizer hprune (Program.performs_done _ s)

/-- Once the Job has completed, and not failed, a pass deletes it and gives the resource up. -/
theorem Pruning.exists_passes_complete (h : Pruning key n o job s)
    (hfailed : JobState.isFailed job.status = false)
    (hcomplete : JobState.isComplete job.status = true) :
    ∃ s', Passes key s (readOf key (some n) :: (TornDown n.spec key.ns ++
        [found key.ns .prune (some o), deleted key.ns .prune, found key.ns .prune none,
          ⟨.updateResource n.removeFinalizer,
            .ok (n.removeFinalizer.withVersion s.nextVersion)⟩])) (fun _ => .ok .awaitChange) s' ∧
      LetGo key n [.prune] s s' := by
  obtain ⟨s', hpasses, hobjects, hresource, hothers⟩ :=
    exists_passes_letGo h.resource h.toDeparting
      (s.dropObject (Component.prune.place key.ns)) (fun _ => rfl) rfl fun poll =>
        h.performs_prune (performs_followPrune_complete poll key.ns s hfailed hcomplete)
  refine ⟨s', hpasses, ?_, ?_, hresource, hothers⟩
  · intro c hc
    obtain rfl := List.mem_singleton.mp hc
    exact (hobjects _).trans (Store.object?_dropObject_self _ s)
  · intro k hk
    have hne : k ≠ Component.prune.place key.ns := (hk .prune List.mem_cons_self).symm
    exact (hobjects k).trans (Store.object?_dropObject_of_ne s hne)

/-- A resource that waits for its prune Job goes on waiting, or is released. -/
theorem Pruning.step (h : Pruning key n o job s) (hstep : Step key s s') :
    (∃ o' job', Pruning key n o' job' s') ∨ Released key s' := by
  cases hstep with
  | pass config time trigger now hns hname =>
      cases hfailed : JobState.isFailed job.status with
      | true =>
          rw [passes_run (h.passes_failed hfailed) now hns hname]
          exact .inl ⟨o, job, h⟩
      | false =>
          cases hcomplete : JobState.isComplete job.status with
          | false =>
              rw [passes_run (h.passes_running hfailed hcomplete) now hns hname]
              exact .inl ⟨o, job, h⟩
          | true =>
              obtain ⟨s₁, hpasses, hgiven⟩ := h.exists_passes_complete hfailed hcomplete
              rw [passes_run hpasses now hns hname]
              exact .inr (released_of_letGo h.deleting hgiven.resource)
  | @report o' job' status ho' hjob' =>
      refine .inl ⟨_, { job' with status := status }, h.toDeparting, h.asked, h.resource,
        fun c hc => ?_, Store.object?_putObject_self _ _ s, rfl⟩
      have hne : c.place key.ns ≠ Component.prune.place key.ns := fun heq =>
        (mem_teardownComponents.mp hc).1 (Component.place_injective heq).1
      exact (Store.object?_putObject_of_ne _ s hne).trans (h.components c hc)

/-- In the long run it waits for the Job, or is released. -/
theorem Pruning.run (h : Pruning key n o job s) (hrun : Run key s s') :
    (∃ o' job', Pruning key n o' job' s') ∨ Released key s' := by
  induction hrun with
  | refl => exact .inl ⟨o, job, h⟩
  | tail _ hstep ih =>
      obtain ⟨o', job', hpruning⟩ | hreleased := ih
      · exact hpruning.step hstep
      · exact .inr (hreleased.step hstep)

end Pruning

/-- After the first pass a resource waits for the prune Job that was created. -/
theorem exists_pruning (hn : s.resource? key = some n) (h : Departing key n)
    (hon : n.spec.pruneOnDelete = true) {o : ManagedObject}
    (ho : Component.prune.desired n key.ns = .ok o) :
    ∃ o' job, Pruning key n o' job ((s.dropped key.ns (teardownComponents n.spec)).putObject
      (Component.prune.place key.ns) o) := by
  obtain ⟨job, hjob⟩ : ∃ job, o.content = .job job := by
    have hkind : o.content.kind = .job := (Component.built_identity ho).1
    cases hcontent : o.content with
    | job job => exact ⟨job, rfl⟩
    | _ =>
        rw [hcontent] at hkind
        cases hkind
  refine ⟨_, job, h, hon, ?_, fun c hc => ?_, Store.object?_putObject_self _ _ _, hjob⟩
  · exact (Store.resource?_dropped key.ns _ s key).trans hn
  · have hne : c.place key.ns ≠ Component.prune.place key.ns := fun heq =>
      (mem_teardownComponents.mp hc).1 (Component.place_injective heq).1
    exact (Store.object?_putObject_of_ne _ _ hne).trans (Store.object?_dropped_of_mem hc)

/-- A released resource stays released in the long run. -/
theorem Released.run (h : Released key s) (hrun : Run key s s') : Released key s' := by
  induction hrun with
  | refl => exact h
  | tail _ hstep ih => exact ih.step hstep

end Departure

open Departure in
/-- **A teardown completes**, on a store that answers every call and whatever else it holds, for a
resource on its way out that is identified. Without pruning one pass deletes the components that are
asked for, makes no call about the prune Job, and gives the resource up. With pruning, and if there
is no prune Job yet, the first pass deletes the components, creates the Job, and leaves the resource
as it is. After that, in the long run, a pass that finds the Job neither failed nor completed
changes nothing; one that finds it failed changes nothing and says so; and one that finds it
completed, and not failed, deletes it and gives the resource up. A pass over a resource that was
given up reads it, and that is all. -/
theorem teardown_completes {ref : OwnerReference} (hn : s.resource? key = some n)
    (h : Departing key n) (href : n.ownerReference? = some ref) :
    (n.spec.pruneOnDelete = false → ∃ s₁,
      Passes key s (readOf key (some n) :: (TornDown n.spec key.ns ++
        [⟨.updateResource n.removeFinalizer, .ok (n.removeFinalizer.withVersion s.nextVersion)⟩]))
        (fun _ => .ok .awaitChange) s₁ ∧
      LetGo key n (teardownComponents n.spec) s s₁ ∧
      ∀ s₂, Run key s₁ s₂ →
        Passes key s₂ [readOf key (s₂.resource? key)] (fun _ => .ok .awaitChange) s₂) ∧
    (n.spec.pruneOnDelete = true → s.object? (Component.prune.place key.ns) = none → ∃ job s₁,
      Component.prune.desired n key.ns = .ok job ∧
      Passes key s (readOf key (some n) :: (TornDown n.spec key.ns ++
        [found key.ns .prune none, ⟨.create job, .ok ()⟩]))
        (fun config => .ok (.requeue config.prunePoll.interval)) s₁ ∧
      s₁ = (s.dropped key.ns (teardownComponents n.spec)).putObject
        (Component.prune.place key.ns) job ∧
      ∀ s₂, Run key s₁ s₂ →
        (∃ o w, Pruning key n o w s₂ ∧
          (JobState.isFailed w.status = false → JobState.isComplete w.status = false →
            Passes key s₂
              (readOf key (some n) :: (TornDown n.spec key.ns ++ [found key.ns .prune (some o)]))
              (fun config => .ok (.requeue config.prunePoll.interval)) s₂) ∧
          (JobState.isFailed w.status = true →
            Passes key s₂
              (readOf key (some n) :: (TornDown n.spec key.ns ++ [found key.ns .prune (some o)]))
              (fun _ => .error (.pruneJobFailed key.ns Component.prune.name
                ((JobState.failureMessage? w.status).getD "job failed"))) s₂) ∧
          (JobState.isFailed w.status = false → JobState.isComplete w.status = true → ∃ s₃,
            Passes key s₂ (readOf key (some n) :: (TornDown n.spec key.ns ++
              [found key.ns .prune (some o), deleted key.ns .prune, found key.ns .prune none,
                ⟨.updateResource n.removeFinalizer,
                  .ok (n.removeFinalizer.withVersion s₂.nextVersion)⟩]))
              (fun _ => .ok .awaitChange) s₃ ∧
            LetGo key n [.prune] s₂ s₃)) ∨
        (Released key s₂ ∧
          Passes key s₂ [readOf key (s₂.resource? key)] (fun _ => .ok .awaitChange) s₂)) := by
  constructor
  · intro hoff
    obtain ⟨s₁, hpasses, hobjects, hresource, hothers⟩ :=
      exists_passes_letGo hn h (s.dropped key.ns (teardownComponents n.spec))
        (Store.resource?_dropped key.ns _ s) (Store.nextVersion_dropped key.ns _ s)
        fun poll => performs_prune_off poll hoff key.ns _
    refine ⟨s₁, hpasses, ⟨fun c hc => ?_, fun k hk => ?_, hresource, hothers⟩, fun s₂ hrun => ?_⟩
    · exact (hobjects _).trans (Store.object?_dropped_of_mem hc)
    · exact (hobjects k).trans (Store.object?_dropped_of_ne hk)
    · exact ((released_of_letGo h.deleting hresource).run hrun).passes
  · intro hon habsent
    obtain ⟨job, hjob⟩ := Component.exists_desired href .prune key.ns
    have hkey : job.key = Component.prune.place key.ns := Component.desired_key hjob
    have hnotin : Component.prune ∉ teardownComponents n.spec := fun hmem =>
      (mem_teardownComponents.mp hmem).1 rfl
    have hstill : (s.dropped key.ns (teardownComponents n.spec)).object?
        (Component.prune.place key.ns) = none :=
      (Store.object?_dropped_of_notMem hnotin).trans habsent
    refine ⟨job, _, hjob, passes_of_finalize hn h.deleting fun config => ?_, rfl, ?_⟩
    · have hprune := performs_prune_start config.prunePoll hon hjob hstill
      exact performs_finalize h.finalizer hprune (Program.performs_done _ _)
    intro s₂ hrun
    obtain ⟨o₁, w₁, hfirst⟩ := exists_pruning hn h hon hjob
    obtain ⟨o, w, hpruning⟩ | hreleased := hfirst.run hrun
    · exact .inl ⟨o, w, hpruning, hpruning.passes_running, hpruning.passes_failed,
        hpruning.exists_passes_complete⟩
    · exact .inr ⟨hreleased, hreleased.passes⟩

end Departures

/-! ### A departure with pruning -/

/-- A store with the resource on its way out, and with a worker. -/
def Store.leaving : Store :=
  (({} : Store).putResource ⟨"gpu", "nfd"⟩ departing).putObject (Component.worker.place "gpu")
    (Component.worker.emptyObject "gpu")

/-- On that store the first pass deletes the worker and creates the prune Job. Once the Job reports
a pod that has succeeded, the next pass deletes it, and the resource goes with its last
finalizer. -/
theorem teardown_completes_leaving :
    ∃ job s₁ o w, Passes ⟨"gpu", "nfd"⟩ Store.leaving
        (readOf ⟨"gpu", "nfd"⟩ (some (departing.withVersion "1")) ::
          (TornDown departing.spec "gpu" ++ [found "gpu" .prune none, ⟨.create job, .ok ()⟩]))
        (fun config => .ok (.requeue config.prunePoll.interval)) s₁ ∧
      s₁.object? (Component.worker.place "gpu") = none ∧
      s₁.object? (Component.prune.place "gpu") = some o ∧ o.content = .job w ∧
      ∃ t s₃, Passes ⟨"gpu", "nfd"⟩ (s₁.putObject (Component.prune.place "gpu")
          { o with content := .job { w with status := some (.obj [("succeeded", .int 1)]) } })
          t (fun _ => .ok .awaitChange) s₃ ∧
        s₃.resource? ⟨"gpu", "nfd"⟩ = none ∧
        s₃.object? (Component.prune.place "gpu") = none := by
  let key : ResourceKey := ⟨"gpu", "nfd"⟩
  let n := departing.withVersion "1"
  have hn : Store.leaving.resource? key = some n := rfl
  have hdeparting : Departing key n := ⟨rfl, rfl, by decide⟩
  have habsent : Store.leaving.object? (Component.prune.place key.ns) = none := by decide +kernel
  obtain ⟨-, hprune⟩ := teardown_completes hn hdeparting (by rfl : n.ownerReference? = some _)
  obtain ⟨job, s₁, hjob, hfirst, hs₁, hrun⟩ := hprune rfl habsent
  obtain ⟨o, w, hpruning⟩ : ∃ o w, Departure.Pruning key n o w s₁ := by
    rw [hs₁]
    exact Departure.exists_pruning hn hdeparting rfl hjob
  have hworker : s₁.object? (Component.worker.place key.ns) = none :=
    hpruning.components .worker (mem_teardownComponents.mpr ⟨by decide, by simp⟩)
  refine ⟨job, s₁, o, w, hfirst, hworker, hpruning.stored, hpruning.content, ?_⟩
  have hreport : Departure.Step key s₁ _ := .report (some (.obj [("succeeded", .int 1)]))
    hpruning.stored hpruning.content
  obtain ⟨o', w', hreported, -, -, hcomplete⟩ | ⟨hreleased, -⟩ := hrun _ (.single hreport)
  · obtain rfl := Option.some.inj
      ((Store.object?_putObject_self _ _ s₁).symm.trans hreported.stored)
    obtain rfl := Content.job.inj hreported.content
    obtain ⟨s₃, hpasses, hgiven⟩ := hcomplete rfl rfl
    exact ⟨_, s₃, hpasses, hgiven.resource, hgiven.gone .prune List.mem_cons_self⟩
  · cases hdeparting.finalizer.symm.trans (hreleased n hpruning.resource).2

end NodeFeatureOperator
