import NodeFeatureOperator.Proofs.Settled

/-!
# What convergence writes

On a store that gives back what was written, convergence of a component comes down to a decision by
what is found at the component's place, and to carrying it out. So a run of convergence writes there
and nowhere else, and what it writes can be told from the object that lay there before.

## Main definitions

* `writesAt`: the writes to one object in a trace.
* `Program.Performs`: trace, value and store of a run that takes no time.
* `Amendment`: leaving, creating or replacing an object.
* `Component.amendment`, `Component.change`: what convergence decides on, and what it does.

## Main results

* `Component.amendment_cases`: everything that can be decided on.
* `Component.convergeCore_eq`: convergence is a look-up and a decision that is carried out.
* `Component.performs_settle`: the store accepts what was decided on.
* `Component.Settled.amendment`, `Component.amendment_of_outdated`: a settled component is left, and
  one with another digest is replaced.
-/

namespace NodeFeatureOperator

open Component (found)

/-! ### Writes to an object -/

/-- The key of the object that a call creates, replaces or deletes. -/
def Call.target? : Call → Option ObjectKey
  | .create o => some o.key
  | .update o => some o.key
  | .delete kind name ns => some ⟨kind, ns, name⟩
  | _ => none

/-- The exchanges of a trace that create, replace or delete the object under a key. -/
def writesAt (key : ObjectKey) (t : List Exchange) : List Exchange :=
  t.filter fun e => e.call.target? = some key

@[simp] theorem writesAt_append (key : ObjectKey) (t t' : List Exchange) :
    writesAt key (t ++ t') = writesAt key t ++ writesAt key t' := List.filter_append t t'

/-- Calls without an object to write do not write to one. -/
theorem writesAt_eq_nil {t : List Exchange} (h : ∀ e ∈ t, e.call.target? = none)
    (key : ObjectKey) : writesAt key t = [] := by
  refine List.filter_eq_nil_iff.mpr fun e he => ?_
  simp [h e he]

/-! ### Runs that take no time -/

namespace Program

variable {α β : Type} {s s₁ s' : Store} {t t' : List Exchange}

/-- `p.Performs s t a s'`: on the store `s` the program makes the exchanges of `t`, ends with `a`
and leaves the store `s'`, all at one time. -/
def Performs (p : Program α) (s : Store) (t : List Exchange) (a : α) (s' : Store) : Prop :=
  ∀ time, p.run Store.respond s time = (a, s', time) ∧ p.exchanges Store.respond s time = t

/-- A program that has ended does nothing more. -/
theorem performs_done (a : α) (s : Store) : (Program.done a).Performs s [] a s :=
  fun _ => ⟨rfl, rfl⟩

/-- A call is made and answered, and what follows the answer is performed. -/
theorem performs_call {c : Call} {next : Except Failure c.Answer → Program α}
    {answer : Except Failure c.Answer} {a : α} (hanswer : s.respond c = (answer, s₁))
    (h : (next answer).Performs s₁ t a s') :
    (Program.call c next).Performs s (⟨c, answer⟩ :: t) a s' := by
  intro time
  obtain ⟨hrun, hexchanges⟩ := h time
  constructor
  · simp only [run, hanswer]
    exact hrun
  · simp only [exchanges, hanswer, hexchanges]

/-- Programs in sequence are performed one after the other. -/
theorem Performs.bind {p : Program α} {f : α → Program β} {a : α} {b : β}
    (hp : p.Performs s t a s₁) (hf : (f a).Performs s₁ t' b s') :
    (p.bind f).Performs s (t ++ t') b s' := by
  intro time
  obtain ⟨hrun, hexchanges⟩ := hp time
  obtain ⟨hrun', hexchanges'⟩ := hf time
  constructor
  · simp only [run_bind, hrun, hrun']
  · rw [exchanges_bind Store.respond p f s time hrun, hexchanges, hexchanges']

end Program

/-! ### Amendments -/

/-- What may be done about an object: nothing, or one write. -/
inductive Amendment where
  | leave
  | create (o : ManagedObject)
  | update (o : ManagedObject)

namespace Amendment

/-- The object that is written. -/
def written? : Amendment → Option ManagedObject
  | leave => none
  | create o => some o
  | update o => some o

/-- What convergence comes to by the amendment. -/
def outcome : Amendment → Outcome
  | leave => .unchanged
  | create _ => .created
  | update _ => .updated

/-- The call that is made, accepted. -/
def writes : Amendment → List Exchange
  | leave => []
  | create o => [⟨.create o, .ok ()⟩]
  | update o => [⟨.update o, .ok ()⟩]

/-- Makes that call, and tells what it came to. -/
def carryOut : Amendment → Program (Except Failure Outcome)
  | leave => .done (.ok .unchanged)
  | create o => .call (.create o) fun answer => .done (answer.map fun _ => .created)
  | update o => .call (.update o) fun answer => .done (answer.map fun _ => .updated)

/-- The store after the amendment of the object under a key. -/
def apply (key : ObjectKey) (a : Amendment) (s : Store) : Store :=
  match a.written? with
  | none => s
  | some o => s.putObject key o

variable {key key' : ObjectKey} {a : Amendment} {s : Store}

/-- The other objects are as they were. -/
theorem object?_apply_of_ne (h : key' ≠ key) (a : Amendment) (s : Store) :
    (a.apply key s).object? key' = s.object? key' := by
  cases a with
  | leave => rfl
  | create o => exact Store.object?_putObject_of_ne o s h
  | update o => exact Store.object?_putObject_of_ne o s h

/-- A coherent store stays so if what is written names the key. -/
theorem coherent_apply (hs : s.Coherent) (ha : ∀ o, a.written? = some o → o.key = key) :
    (a.apply key s).Coherent := by
  cases a with
  | leave => exact hs
  | create o => exact hs.putObject (ha o rfl)
  | update o => exact hs.putObject (ha o rfl)

/-- What is written is written at the key that it names. -/
theorem writesAt_writes (ha : ∀ o, a.written? = some o → o.key = key) (key' : ObjectKey) :
    writesAt key' a.writes = if key = key' then a.writes else [] := by
  cases a with
  | leave => simp [writes, writesAt]
  | create o =>
      by_cases hk : key = key' <;> simp [writes, writesAt, Call.target?, ha o rfl, hk]
  | update o =>
      by_cases hk : key = key' <;> simp [writes, writesAt, Call.target?, ha o rfl, hk]

end Amendment

namespace Component

variable {c : Component} {n : NodeFeatureDiscovery} {ns : String} {s : Store}
  {desired live built : ManagedObject} {live? : Option ManagedObject} {a : Amendment}

/-- What convergence decides on about a component, by what it finds at the component's place. -/
def amendment (c : Component) (n : NodeFeatureDiscovery) (ns : String)
    (live? : Option ManagedObject) : Except Failure Amendment :=
  match c.desired n ns with
  | .error f => .error f
  | .ok desired =>
    match live? with
    | none => .ok (.create (desired.recordHash desired.contentHash))
    | some live =>
      if live.recordedHash = some desired.contentHash ∧ live.carries desired then .ok .leave
      else
        match c.built n live with
        | .error f => .error f
        | .ok built =>
          if built.recordHash desired.contentHash = live then .ok .leave
          else .ok (.update (built.recordHash desired.contentHash))

/-- What is done about a component: what was decided on, or nothing if that failed. -/
def change (c : Component) (n : NodeFeatureDiscovery) (ns : String)
    (live? : Option ManagedObject) : Amendment :=
  match c.amendment n ns live? with
  | .error _ => .leave
  | .ok a => a

/-- What was decided on is done. -/
theorem change_of_ok (h : c.amendment n ns live? = .ok a) : c.change n ns live? = a := by
  rw [change, h]

/-- An object that does not exist is created. -/
theorem amendment_none (h : c.desired n ns = .ok desired) :
    c.amendment n ns none = .ok (.create (desired.recordHash desired.contentHash)) := by
  rw [amendment, h]

/-- A settled component is left. -/
theorem Settled.amendment (h : c.Settled n ns s) :
    c.amendment n ns (s.object? (c.place ns)) = .ok .leave := by
  obtain ⟨desired, live, hdesired, hlive, hexit⟩ := h
  rw [Component.amendment, hdesired, hlive]
  dsimp only
  split
  · rfl
  next hstale =>
    obtain hfresh | ⟨built, hbuilt, hsame⟩ := hexit
    · exact absurd hfresh hstale
    · rw [hbuilt]
      exact if_pos hsame

/-- An object with another digest recorded on it is replaced by what is built onto it. -/
theorem amendment_of_outdated (h : c.desired n ns = .ok desired)
    (hstale : live.recordedHash ≠ some desired.contentHash) (hbuilt : c.built n live = .ok built) :
    c.amendment n ns (some live) = .ok (.update (built.recordHash desired.contentHash)) := by
  -- the update records the digest, so that it does change the object
  have hchanged : built.recordHash desired.contentHash ≠ live := by
    rintro rfl
    exact hstale (ManagedObject.recordedHash_recordHash _ _)
  rw [amendment, h]
  dsimp only
  rw [if_neg fun hfresh => hstale hfresh.1, hbuilt]
  exact if_neg hchanged

/-- Of the resource the decision depends on the desired state and what identifies the owner. -/
theorem amendment_congr {n' : NodeFeatureDiscovery} (hspec : n'.spec = n.spec)
    (href : n'.ownerReference? = n.ownerReference?) (c : Component) (ns : String)
    (live? : Option ManagedObject) : c.amendment n' ns live? = c.amendment n ns live? := by
  simp only [amendment, desired_congr hspec href, built_congr hspec href]

/-- So does what is done. -/
theorem change_congr {n' : NodeFeatureDiscovery} (hspec : n'.spec = n.spec)
    (href : n'.ownerReference? = n.ownerReference?) (c : Component) (ns : String)
    (live? : Option ManagedObject) : c.change n' ns live? = c.change n ns live? := by
  rw [change, amendment_congr hspec href, change]

/-! ### What a decision was made on -/

/-- Everything that can be decided on. What is missing is created; what was found is left, by its
digest or because a build onto it changes nothing, and else replaced. -/
theorem amendment_cases (h : c.amendment n ns live? = .ok a) :
    ∃ desired, c.desired n ns = .ok desired ∧
      ((live? = none ∧ a = .create (desired.recordHash desired.contentHash)) ∨
        ∃ live, live? = some live ∧
          ((a = .leave ∧ live.recordedHash = some desired.contentHash ∧
              live.carries desired = true) ∨
            ∃ built, c.built n live = .ok built ∧
              ((a = .leave ∧ built.recordHash desired.contentHash = live) ∨
                (a = .update (built.recordHash desired.contentHash) ∧
                  built.recordHash desired.contentHash ≠ live)))) := by
  rw [amendment] at h
  split at h
  · cases h
  next desired hdesired =>
    refine ⟨desired, hdesired, ?_⟩
    split at h
    · exact .inl ⟨rfl, (Except.ok.inj h).symm⟩
    next live =>
      refine .inr ⟨live, rfl, ?_⟩
      split at h
      next hfresh => exact .inl ⟨(Except.ok.inj h).symm, hfresh⟩
      · split at h
        · cases h
        next built hbuilt =>
          refine .inr ⟨built, hbuilt, ?_⟩
          split at h
          next hsame => exact .inl ⟨(Except.ok.inj h).symm, hsame⟩
          next hchanged => exact .inr ⟨(Except.ok.inj h).symm, hchanged⟩

/-- Only an object that was not found is created, from scratch. -/
theorem exists_of_amendment_create {o : ManagedObject}
    (h : c.amendment n ns live? = .ok (.create o)) :
    live? = none ∧ ∃ desired, c.desired n ns = .ok desired ∧
      o = desired.recordHash desired.contentHash := by
  obtain ⟨desired, hdesired, ⟨rfl, ho⟩ | ⟨live, rfl, ⟨⟨⟩, -⟩ | ⟨built, -, ⟨⟨⟩, -⟩ | ⟨⟨⟩, -⟩⟩⟩⟩ :=
    amendment_cases h
  exact ⟨rfl, desired, hdesired, Amendment.create.inj ho⟩

/-- Only an object that was found is replaced, by a build onto it. -/
theorem exists_of_amendment_update {o : ManagedObject}
    (h : c.amendment n ns live? = .ok (.update o)) :
    ∃ desired live built, c.desired n ns = .ok desired ∧ live? = some live ∧
      c.built n live = .ok built ∧ o = built.recordHash desired.contentHash := by
  obtain ⟨desired, hdesired, ⟨-, ⟨⟩⟩ | ⟨live, rfl, ⟨⟨⟩, -⟩ | ⟨built, hbuilt, ⟨⟨⟩, -⟩ | ⟨ho, -⟩⟩⟩⟩ :=
    amendment_cases h
  exact ⟨desired, live, built, hdesired, rfl, hbuilt, Amendment.update.inj ho⟩

/-- An object is left only if it is recognised by its digest, or is what a build onto it gives. -/
theorem exists_of_amendment_leave (h : c.amendment n ns live? = .ok .leave) :
    ∃ desired live, c.desired n ns = .ok desired ∧ live? = some live ∧
      (live.recordedHash = some desired.contentHash ∨
        ∃ built, c.built n live = .ok built ∧ live = built.recordHash desired.contentHash) := by
  obtain ⟨desired, hdesired,
    ⟨-, ⟨⟩⟩ | ⟨live, rfl, ⟨-, hfresh, -⟩ | ⟨built, hbuilt, ⟨-, hsame⟩ | ⟨⟨⟩, -⟩⟩⟩⟩ :=
    amendment_cases h
  · exact ⟨desired, live, hdesired, rfl, .inl hfresh⟩
  · exact ⟨desired, live, hdesired, rfl, .inr ⟨built, hbuilt, hsame.symm⟩⟩

/-- What is created names the component's place. -/
theorem key_of_amendment_create {o : ManagedObject}
    (h : c.amendment n ns live? = .ok (.create o)) : o.key = c.place ns := by
  obtain ⟨-, desired, hdesired, rfl⟩ := exists_of_amendment_create h
  exact (ManagedObject.key_recordHash _ _).trans (desired_key hdesired)

/-- What replaces an object of the component's names names its place, and that object's version. -/
theorem key_of_amendment_update {live o : ManagedObject} (hnames : (c.place ns).Names live)
    (h : c.amendment n ns (some live) = .ok (.update o)) :
    o.key = c.place ns ∧ o.metadata.resourceVersion = live.metadata.resourceVersion := by
  obtain ⟨desired, live', built, -, heq, hbuilt, rfl⟩ := exists_of_amendment_update h
  obtain rfl := Option.some.inj heq
  have hversion : built.metadata.resourceVersion = live.metadata.resourceVersion :=
    built_resourceVersion hbuilt
  exact ⟨(ManagedObject.key_recordHash _ _).trans (built_key_of_names hbuilt hnames), hversion⟩

/-- What is written names the place of the component, if what was found does. -/
theorem key_of_change (hlive : ∀ live, live? = some live → live.key = c.place ns) :
    ∀ o, (c.change n ns live?).written? = some o → o.key = c.place ns := by
  rw [change]
  split
  · rintro _ ⟨⟩
  next a h =>
    cases a with
    | leave => rintro _ ⟨⟩
    | create o =>
        rintro _ ⟨⟩
        exact key_of_amendment_create h
    | update o =>
        rintro _ ⟨⟩
        obtain ⟨desired, live, built, -, rfl, hbuilt, rfl⟩ := exists_of_amendment_update h
        exact (ManagedObject.key_recordHash _ _).trans (built_key hbuilt (hlive live rfl))

/-! ### Decisions are carried out -/

/-- An object that is not recognised is rebuilt as decided. -/
theorem rebuild_eq (h : c.desired n ns = .ok desired)
    (hstale : ¬ (live.recordedHash = some desired.contentHash ∧ live.carries desired = true)) :
    c.rebuild n desired.contentHash live =
      match c.amendment n ns (some live) with
      | .error f => .done (.error f)
      | .ok a => a.carryOut := by
  rw [amendment, h]
  dsimp only
  rw [if_neg hstale, rebuild]
  cases c.built n live with
  | error f => rfl
  | ok built =>
      by_cases hsame : built.recordHash desired.contentHash = live
      · simp only [if_pos hsame]
        rfl
      · simp only [if_neg hsame]
        refine congrArg (Program.call _) (funext fun answer => ?_)
        cases answer <;> rfl

/-- Convergence looks the component up, decides by what it finds, and carries that out. -/
theorem convergeCore_eq (h : c.desired n ns = .ok desired) :
    c.convergeCore n ns = .call (.get c.kind c.name ns) fun found =>
      match found.bind (c.amendment n ns) with
      | .error f => .done (.error f)
      | .ok a => a.carryOut := by
  rw [convergeCore, h]
  refine congrArg (Program.call _) (funext fun found => ?_)
  rcases found with f | _ | live
  · rfl
  · simp only [Except.bind, amendment_none h]
    refine congrArg (Program.call _) (funext fun answer => ?_)
    cases answer <;> rfl
  · by_cases hfresh : live.recordedHash = some desired.contentHash ∧ live.carries desired = true
    · simp only [Except.bind, amendment, h, if_pos hfresh]
      simp only [Program.bind, if_pos hfresh]
      rfl
    · simp only [Except.bind, Program.bind, if_neg hfresh]
      exact rebuild_eq h hfresh

/-- What was decided on about the object at a component's place is accepted by the store. -/
theorem performs_carryOut (hs : s.Coherent)
    (h : c.amendment n ns (s.object? (c.place ns)) = .ok a) :
    a.carryOut.Performs s a.writes (.ok a.outcome) (a.apply (c.place ns) s) := by
  cases a with
  | leave => exact Program.performs_done _ _
  | create o =>
      obtain ⟨hnone, -⟩ := exists_of_amendment_create h
      have hplace := key_of_amendment_create h
      have hcreate := Store.create_of_absent (hplace.symm ▸ hnone)
      rw [hplace] at hcreate
      exact Program.performs_call hcreate (Program.performs_done _ _)
  | update o =>
      obtain ⟨_, live, _, -, hlive, -, -⟩ := exists_of_amendment_update h
      obtain ⟨hplace, hversion⟩ := key_of_amendment_update (hs.named _ _ hlive) (hlive ▸ h)
      have hupdate := Store.update_of_current (hplace.symm ▸ hlive) hversion.symm
      rw [hplace] at hupdate
      exact Program.performs_call hupdate (Program.performs_done _ _)

/-- Convergence carries out what was decided on. -/
theorem performs_convergeCore (c : Component) (n : NodeFeatureDiscovery) (ns : String)
    (hs : s.Coherent) :
    ∃ reads, (∀ e ∈ reads, e.call.target? = none) ∧
      (c.convergeCore n ns).Performs s
        (reads ++ (c.change n ns (s.object? (c.place ns))).writes)
        ((c.amendment n ns (s.object? (c.place ns))).map Amendment.outcome)
        ((c.change n ns (s.object? (c.place ns))).apply (c.place ns) s) := by
  cases hdesired : c.desired n ns with
  | error f =>
      rw [convergeCore, change, amendment, hdesired]
      exact ⟨[], by simp, Program.performs_done _ _⟩
  | ok desired =>
      refine ⟨[found ns c (s.object? (c.place ns))], by simp [found, Call.target?], ?_⟩
      have hread : s.respond (.get c.kind c.name ns) = (.ok (s.object? (c.place ns)), s) := rfl
      rw [convergeCore_eq hdesired]
      refine Program.performs_call hread ?_
      dsimp only [Except.bind]
      cases h : c.amendment n ns (s.object? (c.place ns)) with
      | error f =>
          rw [change, h]
          exact Program.performs_done _ _
      | ok a =>
          rw [change_of_ok h]
          exact performs_carryOut hs h

/-- Whatever convergence decides on, it carries that out, and ends well if it decides at all. -/
theorem performs_settle (c : Component) (n : NodeFeatureDiscovery) (ns : String)
    (hs : s.Coherent) :
    ∃ reads, (∀ e ∈ reads, e.call.target? = none) ∧
      (c.settle n ns).Performs s
        (reads ++ (c.change n ns (s.object? (c.place ns))).writes)
        ((((c.amendment n ns (s.object? (c.place ns))).map Amendment.outcome).mapError
          (c.failure ns)).map fun _ => ())
        ((c.change n ns (s.object? (c.place ns))).apply (c.place ns) s) := by
  obtain ⟨reads, hreads, hcore⟩ := performs_convergeCore c n ns hs
  refine ⟨reads, hreads, ?_⟩
  have hconverge : (c.converge n ns).Performs s _ _ _ := hcore.bind (Program.performs_done _ _)
  have hsettle : (c.settle n ns).Performs s _ _ _ := hconverge.bind (Program.performs_done _ _)
  rwa [List.append_nil, List.append_nil] at hsettle

end Component

end NodeFeatureOperator
