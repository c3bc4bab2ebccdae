import NodeFeatureOperator.Proofs.Isolation

/-!
# One write or none

Convergence of a component looks the component's object up, and makes one write at most. It is over
with that write, so that a failure, whichever call it comes from, leaves everything as it was, and a
convergence that does not fail tells by its outcome which write was accepted. An outcome is only
told of a convergence that does not fail: nothing is written either if the object that is there
cannot be read.

## Main definitions

* `Store.Takes`, `Store.TakesAll`: how calls are answered if those that fail have no effect.
* `Component.Reports`: what the result of a convergence tells.

## Main results

* `Store.takesAll_exchanges`: what a store takes under a schedule of faults.
* `Component.reports_of_converges`: what any trace of a convergence tells by its result.
* `Component.converge_atomic`: convergence under any schedule of faults.
* `unread_not_unchanged`: an object that cannot be read is not unchanged.
-/

namespace NodeFeatureOperator

open Component (found)

/-- Whether a call of a sort was made and accepted. -/
def Exchange.accepts (verb : Call.Verb) (e : Exchange) : Bool :=
  e.call.verb == verb && e.answer.isOk

/-- A look-up is a read. -/
@[simp] theorem Component.isRead_found (ns : String) (c : Component)
    (live? : Option ManagedObject) : (found ns c live?).call.isRead = true := rfl

/-- The version of an object has nothing to do with its digest. -/
@[simp] theorem ManagedObject.recordedHash_withVersion (version : String) (o : ManagedObject) :
    (o.withVersion version).recordedHash = o.recordedHash := rfl

namespace Store

variable {s s' : Store} {t : List Exchange}

/-! ### Failures without effect -/

/-- How a call is answered, and what is stored afterwards, if a call that fails has no effect. -/
inductive Takes (s : Store) : (call : Call) → Except Failure call.Answer → Store → Prop
  | accepted {call : Call} {a : call.Answer} {s' : Store} :
      s.respond call = (.ok a, s') → Takes s call (.ok a) s'
  | failed (call : Call) (f : Failure) : Takes s call (.error f) s

/-- How the calls of a trace are answered one after the other. -/
inductive TakesAll : Store → List Exchange → Store → Prop
  | nil (s : Store) : TakesAll s [] s
  | cons {s s' s'' : Store} {e : Exchange} {t : List Exchange} :
      s.Takes e.call e.answer s' → TakesAll s' t s'' → TakesAll s (e :: t) s''

/-- Under any schedule of faults the calls that fail have no effect. -/
theorem takes_respondUnder (plan : Schedule) (call : Call) (state : Store × List Call) :
    state.1.Takes call (respondUnder plan call state).1 (respondUnder plan call state).2.1 := by
  rw [respondUnder]
  split
  next f hfail => exact .failed call f
  next =>
    -- a store that refuses a call itself is not changed by it either
    rcases hserved : state.1.respond call with ⟨f | a, after⟩
    · obtain rfl := respond_of_error hserved
      exact .failed call f
    · exact .accepted hserved

/-- What a store takes call by call it takes in a run. -/
theorem takesAll_exchanges {α : Type} (plan : Schedule) (p : Program α)
    (state : Store × List Call) (time : Duration) :
    state.1.TakesAll (p.exchanges (respondUnder plan) state time)
      (p.run (respondUnder plan) state time).2.1.1 := by
  induction p generalizing state time with
  | done a => exact .nil _
  | call c next ih => exact .cons (takes_respondUnder plan c state) (ih _ _ time)
  | sleep length next ih => exact ih state (time + length)
  | clock next ih => exact ih time state time

/-- A look-up that is answered shows what is stored, and leaves it. -/
theorem TakesAll.of_found {c : Component} {ns : String} {live? : Option ManagedObject}
    (h : s.TakesAll (found ns c live? :: t) s') :
    s.object? (c.place ns) = live? ∧ s.TakesAll t s' := by
  cases h with
  | cons htakes hrest =>
      cases htakes with
      | accepted hread =>
          obtain ⟨hlive, rfl⟩ := Prod.mk.inj hread
          exact ⟨Except.ok.inj hlive, hrest⟩

/-- A single call that fails leaves what is stored. -/
theorem TakesAll.of_failed {call : Call} {f : Failure}
    (h : s.TakesAll [⟨call, .error f⟩] s') : s' = s := by
  cases h with
  | cons htakes hrest =>
      cases hrest
      cases htakes
      rfl

/-- A single call that is accepted was answered by the store. -/
theorem TakesAll.of_accepted {call : Call} {a : call.Answer}
    (h : s.TakesAll [⟨call, .ok a⟩] s') : s.respond call = (.ok a, s') := by
  cases h with
  | cons htakes hrest =>
      cases hrest
      cases htakes with
      | accepted hserved => exact hserved

end Store

/-! ### What a result tells -/

namespace Component

variable {c : Component} {n : NodeFeatureDiscovery} {ns : String} {s s' : Store}
  {t : List Exchange} {r : Except Failure Outcome}

/-- What the result of a convergence tells of its calls, and of the stores before and after it. -/
structure Reports (c : Component) (n : NodeFeatureDiscovery) (ns : String) (s : Store)
    (t : List Exchange) (r : Except Failure Outcome) (s' : Store) : Prop where
  /-- A failure has left everything as it was. -/
  failed : ∀ f, r = .error f → s' = s
  /-- There was one write at most. -/
  single : t.countP (fun e => !e.call.isRead) ≤ 1
  /-- The object was created if there was none, and one creation and no replacement was accepted. -/
  created : r = .ok .created ↔ s.object? (c.place ns) = none ∧
    t.countP (·.accepts .create) = 1 ∧ t.countP (·.accepts .update) = 0
  /-- The object was updated if there was one, and one replacement and no creation was accepted. -/
  updated : r = .ok .updated ↔ (∃ live, s.object? (c.place ns) = some live) ∧
    t.countP (·.accepts .update) = 1 ∧ t.countP (·.accepts .create) = 0
  /-- The object was unchanged if there was one, no write was made, and nothing failed. -/
  unchanged : r = .ok .unchanged ↔ (∃ live, s.object? (c.place ns) = some live) ∧
    (∀ e ∈ t, e.call.isRead = true) ∧ ∃ outcome, r = .ok outcome
  /-- What was written is stored, with the digest of what is desired noted on it. -/
  recorded : r = .ok .created ∨ r = .ok .updated → ∃ desired o stored,
    c.desired n ns = .ok desired ∧ (⟨.create o, .ok ()⟩ ∈ t ∨ ⟨.update o, .ok ()⟩ ∈ t) ∧
    (r = .ok .created ∨ s.Named → o.key = c.place ns) ∧ s'.object? o.key = some stored ∧
    stored.recordedHash = some desired.contentHash

/-- A convergence that fails without having had a write accepted tells of nothing else. -/
theorem reports_of_failed {f : Failure} (hsingle : t.countP (fun e => !e.call.isRead) ≤ 1)
    (hcreations : t.countP (·.accepts .create) = 0)
    (hupdates : t.countP (·.accepts .update) = 0) : c.Reports n ns s t (.error f) s where
  failed := fun _ _ => rfl
  single := hsingle
  created := by simp [hcreations]
  updated := by simp [hupdates]
  unchanged := by simp
  recorded := by simp

/-- A convergence that found what it would have made tells that it left it. -/
theorem reports_of_left {live : ManagedObject} (hlive : s.object? (c.place ns) = some live) :
    c.Reports n ns s [found ns c (some live)] (.ok .unchanged) s where
  failed := by simp
  single := Nat.zero_le 1
  created := by simp [hlive]
  updated := ⟨by simp, fun ⟨_, hupdates, _⟩ => absurd hupdates Nat.zero_ne_one⟩
  unchanged := by simp [hlive]
  recorded := by simp

/-- A convergence that found nothing, and had a creation accepted, tells that it created. -/
theorem reports_of_created {o : ManagedObject} (habsent : s.object? (c.place ns) = none)
    (hdecided : c.amendment n ns none = .ok (.create o)) :
    c.Reports n ns s [found ns c none, ⟨.create o, .ok ()⟩] (.ok .created)
      (s.putObject o.key o) where
  failed := by simp
  single := Nat.le_refl 1
  created := ⟨fun _ => ⟨habsent, rfl, rfl⟩, fun _ => rfl⟩
  updated := by simp [habsent]
  unchanged := by simp [habsent]
  recorded := by
    obtain ⟨-, desired, hdesired, rfl⟩ := exists_of_amendment_create hdecided
    exact fun _ => ⟨desired, _, _, hdesired, .inl (by simp),
      fun _ => key_of_amendment_create hdecided, Store.object?_putObject_self _ _ _, by simp⟩

/-- A convergence that found an object, and had another one in its place accepted, tells that it
updated it. -/
theorem reports_of_updated {live o : ManagedObject} (hlive : s.object? (c.place ns) = some live)
    (hdecided : c.amendment n ns (some live) = .ok (.update o)) :
    c.Reports n ns s [found ns c (some live), ⟨.update o, .ok ()⟩] (.ok .updated)
      (s.putObject o.key o) where
  failed := by simp
  single := Nat.le_refl 1
  created := by simp [hlive]
  updated := ⟨fun _ => ⟨⟨live, hlive⟩, rfl, rfl⟩, fun _ => rfl⟩
  unchanged := by simp [Call.isRead]
  recorded := by
    have hkey : s.Named → o.key = c.place ns := fun hs =>
      (key_of_amendment_update (hs _ _ hlive) hdecided).1
    obtain ⟨desired, _, _, hdesired, -, -, rfl⟩ := exists_of_amendment_update hdecided
    exact fun _ => ⟨desired, _, _, hdesired, .inr (by simp), fun h => hkey (h.resolve_left nofun),
      Store.object?_putObject_self _ _ _, by simp⟩

/-- What any trace of a convergence tells by its result, if calls that fail have no effect. -/
theorem reports_of_converges (h : c.Converges n ns t r) (ht : s.TakesAll t s') :
    c.Reports n ns s t r s' := by
  cases h with
  | unbuilt hdesired =>
      cases ht
      exact reports_of_failed (Nat.zero_le 1) rfl rfl
  | unread f hdesired =>
      obtain rfl := ht.of_failed
      exact reports_of_failed (Nat.zero_le 1) rfl rfl
  | undecided hdesired hundecided =>
      obtain ⟨-, hrest⟩ := ht.of_found
      cases hrest
      exact reports_of_failed (Nat.zero_le 1) rfl rfl
  | left hdecided =>
      obtain ⟨_, live, -, rfl, -⟩ := exists_of_amendment_leave hdecided
      obtain ⟨hlive, hrest⟩ := ht.of_found
      cases hrest
      exact reports_of_left hlive
  | created answer hdecided =>
      obtain ⟨habsent, hwrite⟩ := ht.of_found
      cases answer with
      | error f =>
          obtain rfl := hwrite.of_failed
          exact reports_of_failed (Nat.le_refl 1) rfl rfl
      | ok u =>
          obtain rfl := Store.eq_of_create_ok hwrite.of_accepted
          exact reports_of_created habsent hdecided
  | updated answer hdecided =>
      obtain ⟨hlive, hwrite⟩ := ht.of_found
      cases answer with
      | error f =>
          obtain rfl := hwrite.of_failed
          exact reports_of_failed (Nat.le_refl 1) rfl rfl
      | ok u =>
          obtain ⟨_, -, -, rfl⟩ := Store.exists_of_update_ok hwrite.of_accepted
          exact reports_of_updated hlive hdecided

/-- **Convergence writes once or not at all, and tells which.** Under any schedule of faults, on any
store, a convergence that fails leaves the store; otherwise its outcome tells whether the object was
there and which one write was accepted; and what was written bears the digest of what is desired. -/
theorem converge_atomic (c : Component) (n : NodeFeatureDiscovery) (ns : String) (plan : Schedule)
    (s : Store) (past : List Call) (time : Duration) :
    c.Reports n ns s ((c.converge n ns).exchanges (Store.respondUnder plan) (s, past) time)
      ((c.converge n ns).run (Store.respondUnder plan) (s, past) time).1
      ((c.converge n ns).run (Store.respondUnder plan) (s, past) time).2.1.1 :=
  reports_of_converges
    (converges_of_ends (Program.ends_exchanges _ (c.converge n ns) (s, past) time))
    (Store.takesAll_exchanges plan (c.converge n ns) (s, past) time)

end Component

/-! ### An object that cannot be read -/

/-- The object under a key cannot be looked up. -/
def Schedule.unreadable (key : ObjectKey) : Schedule := fun _ call =>
  if call.verb = .get ∧ call.subject? = some key then
    some (Store.refusal 503 "ServiceUnavailable")
  else .none

/-- **An object that cannot be read is not unchanged.** The worker's configuration is there, and its
convergence writes nothing; but the look-up fails, and that is what is told. -/
theorem unread_not_unchanged :
    (∃ live, Store.occupied.object? (Component.workerConfig.place "gpu") = some live) ∧
      (∀ e ∈ (Component.workerConfig.converge installed "gpu").exchanges
        (Store.respondUnder (Schedule.unreadable (Component.workerConfig.place "gpu")))
        (Store.occupied, []) (Duration.ofSeconds 0), e.call.isRead = true) ∧
      ((Component.workerConfig.converge installed "gpu").run
        (Store.respondUnder (Schedule.unreadable (Component.workerConfig.place "gpu")))
        (Store.occupied, []) (Duration.ofSeconds 0)).1 ≠ .ok .unchanged :=
  ⟨⟨_, rfl⟩, by decide +kernel, nofun⟩

end NodeFeatureOperator
