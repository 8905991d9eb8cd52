import Pelagos.Library.SetReplay

/-!
# Container lifecycle events

The guest compares two successive readings of its container state directory and emits the
lifecycle events that lead from the first to the second.  `statusIn` reduces a reading to what
the comparison looks at: whether a name is listed, and whether it is listed as running.
-/

namespace Pelagos.Guest

open SetReplay

/-- A container state record read from `/run/pelagos/containers/`. -/
structure ContainerSnapshot where
  /-- Container name, the identity used by every event. -/
  name : String
  /-- Lifecycle status; only `"running"` is distinguished. -/
  status : String
  pid : Int32
  rootfs : String
  startedAt : String
  exitCode : Option Int32
  /-- Published port specifications such as `"8080:80"`. -/
  ports : List String
  deriving DecidableEq

/-- The record has status `"running"`. -/
def ContainerSnapshot.running (container : ContainerSnapshot) : Bool :=
  container.status == "running"

/-- Events streamed over a subscription. -/
inductive GuestEvent where
  | snapshot (containers : List ContainerSnapshot) (vmRunning : Bool)
  | containerStarted (container : ContainerSnapshot)
  | containerExited (name : String) (exitCode : Option Int32)
  | heartbeat (ts : UInt64)
  deriving DecidableEq

/-- Events for a listed container that appeared or turned to running. -/
def appearanceEvents (prev : List ContainerSnapshot) (container : ContainerSnapshot) :
    List GuestEvent :=
  match prev.find? fun earlier => earlier.name = container.name with
  | none =>
      .containerStarted container ::
        if container.running then [] else [.containerExited container.name container.exitCode]
  | some earlier =>
      if !earlier.running && container.running then [.containerStarted container] else []

/-- Events for a previously listed container that disappeared or stopped running. -/
def departureEvents (current : List ContainerSnapshot) (earlier : ContainerSnapshot) :
    List GuestEvent :=
  match current.find? fun container => container.name = earlier.name with
  | none => [.containerExited earlier.name earlier.exitCode]
  | some container =>
      if earlier.running && !container.running then
        [.containerExited container.name container.exitCode]
      else
        []

/-- The events leading from one reading of the state directory to the next. -/
def diffContainerStates (prev current : List ContainerSnapshot) : List GuestEvent :=
  current.flatMap (appearanceEvents prev) ++ prev.flatMap (departureEvents current)

/-- The membership change a subscriber makes on receiving an event. -/
def GuestEvent.change? : GuestEvent → Option (Change String)
  | containerStarted container => some (.add container.name)
  | containerExited name _ => some (.remove name)
  | snapshot _ _ | heartbeat _ => none

/-- Fold events over a set of running names: a start adds its name, an exit removes it. -/
def applyEvents (events : List GuestEvent) (names : Finset String) : Finset String :=
  replay (events.filterMap GuestEvent.change?) names

/-- The names a reading lists as running. -/
def runningNames (containers : List ContainerSnapshot) : Finset String :=
  ((containers.filter ContainerSnapshot.running).map ContainerSnapshot.name).toFinset

/-- How a reading lists a name: not at all, or with its running flag. -/
def statusIn (containers : List ContainerSnapshot) (name : String) : Option Bool :=
  (containers.find? fun container => container.name = name).map ContainerSnapshot.running

/-- The names of a reading are pairwise distinct. -/
def DistinctNames (containers : List ContainerSnapshot) : Prop :=
  (containers.map ContainerSnapshot.name).Nodup

instance (containers : List ContainerSnapshot) : Decidable (DistinctNames containers) :=
  inferInstanceAs (Decidable (List.Nodup _))

theorem find?_name {containers : List ContainerSnapshot} (distinct : DistinctNames containers)
    {container : ContainerSnapshot} (listed : container ∈ containers) :
    (containers.find? fun other => other.name = container.name) = some container := by
  induction containers with
  | nil => simp at listed
  | cons head tail ih =>
      obtain ⟨fresh, distinct_tail⟩ := List.nodup_cons.mp distinct
      rcases List.mem_cons.mp listed with rfl | listed
      · simp
      · have head_ne : head.name ≠ container.name := by
          intro same
          exact fresh (same ▸ List.mem_map_of_mem listed)
        simp [head_ne, ih distinct_tail listed]

theorem statusIn_eq_some_iff {containers : List ContainerSnapshot}
    (distinct : DistinctNames containers) {name : String} {flag : Bool} :
    statusIn containers name = some flag ↔
      ∃ container ∈ containers, container.name = name ∧ container.running = flag := by
  constructor
  · intro status
    obtain ⟨container, found, running⟩ := Option.map_eq_some_iff.mp status
    have same := List.find?_some found
    exact ⟨container, List.mem_of_find?_eq_some found, by simpa using same, running⟩
  · rintro ⟨container, listed, rfl, rfl⟩
    simp [statusIn, find?_name distinct listed]

theorem mem_runningNames {containers : List ContainerSnapshot} (distinct : DistinctNames containers)
    {name : String} : name ∈ runningNames containers ↔ statusIn containers name = some true := by
  rw [statusIn_eq_some_iff distinct]
  simp [runningNames, and_left_comm, and_comm]

private theorem appearance_verdict (prev : List ContainerSnapshot) (container : ContainerSnapshot) :
    verdict container.name ((appearanceEvents prev container).filterMap GuestEvent.change?) =
      match statusIn prev container.name with
      | none => some container.running
      | some flag => if !flag && container.running then some true else none := by
  unfold appearanceEvents statusIn
  cases prev.find? fun earlier => earlier.name = container.name with
  | none =>
      cases container.running <;>
        simp [verdict_cons, GuestEvent.change?, Change.subject, Change.present]
  | some earlier =>
      cases before : earlier.running <;> cases container.running <;>
        simp [before, verdict_cons, GuestEvent.change?, Change.subject, Change.present]

private theorem departure_verdict (current : List ContainerSnapshot) (earlier : ContainerSnapshot) :
    verdict earlier.name ((departureEvents current earlier).filterMap GuestEvent.change?) =
      match statusIn current earlier.name with
      | none => some false
      | some flag => if earlier.running && !flag then some false else none := by
  unfold departureEvents statusIn
  cases found : current.find? fun container => container.name = earlier.name with
  | none => simp [verdict_cons, GuestEvent.change?, Change.subject, Change.present]
  | some container =>
      have same : container.name = earlier.name := by simpa using List.find?_some found
      cases earlier.running <;> cases now : container.running <;>
        simp [now, verdict_cons, GuestEvent.change?, Change.subject, Change.present, same]

private theorem appearance_about (prev : List ContainerSnapshot) (container : ContainerSnapshot) :
    ∀ change ∈ (appearanceEvents prev container).filterMap GuestEvent.change?,
      change.subject = container.name := by
  unfold appearanceEvents
  intro change member
  split at member <;> split at member <;>
    simp only [List.filterMap_cons, List.filterMap_nil, GuestEvent.change?, List.mem_cons,
      List.not_mem_nil, or_false] at member
  · exact member ▸ rfl
  · rcases member with rfl | rfl <;> rfl
  · exact member ▸ rfl

private theorem departure_about (current : List ContainerSnapshot) (earlier : ContainerSnapshot) :
    ∀ change ∈ (departureEvents current earlier).filterMap GuestEvent.change?,
      change.subject = earlier.name := by
  unfold departureEvents
  intro change member
  split at member
  · simp only [List.filterMap_cons, List.filterMap_nil, GuestEvent.change?, List.mem_cons,
      List.not_mem_nil, or_false] at member
    exact member ▸ rfl
  · rename_i container found
    have same : container.name = earlier.name := by simpa using List.find?_some found
    split at member <;>
      simp only [List.filterMap_cons, List.filterMap_nil, GuestEvent.change?, List.mem_cons,
        List.not_mem_nil, or_false] at member
    exact member ▸ same

/-- A comparison says nothing about a name whose status did not change, and otherwise its last
event about the name gives the new status. -/
theorem verdict_diffContainerStates {prev current : List ContainerSnapshot}
    (distinct_prev : DistinctNames prev) (distinct_current : DistinctNames current)
    (name : String) :
    verdict name ((diffContainerStates prev current).filterMap GuestEvent.change?) =
      if statusIn prev name = statusIn current name then none
      else some (decide (statusIn current name = some true)) := by
  rw [diffContainerStates, List.filterMap_append, verdict_append, List.filterMap_flatMap,
    List.filterMap_flatMap,
    verdict_flatMap name ContainerSnapshot.name _ (appearance_about prev) distinct_current,
    verdict_flatMap name ContainerSnapshot.name _ (departure_about current) distinct_prev]
  have appeared : ∀ container, current.find? (fun other => other.name = name) = some container →
      container.name = name := by
    intro container found
    simpa using List.find?_some found
  have departed : ∀ earlier, prev.find? (fun other => other.name = name) = some earlier →
      earlier.name = name := by
    intro earlier found
    simpa using List.find?_some found
  cases found : current.find? fun other => other.name = name with
  | none =>
      have now : statusIn current name = none := by simp [statusIn, found]
      cases found_prev : prev.find? fun other => other.name = name with
      | none =>
          have before : statusIn prev name = none := by simp [statusIn, found_prev]
          simp [before, now]
      | some earlier =>
          have same := departed earlier found_prev
          have before : statusIn prev name = some earlier.running := by
            simp [statusIn, found_prev]
          subst same
          simp [departure_verdict, now, before]
  | some container =>
      have same := appeared container found
      have now : statusIn current name = some container.running := by simp [statusIn, found]
      subst same
      cases found_prev : prev.find? fun other => other.name = container.name with
      | none =>
          have before : statusIn prev container.name = none := by simp [statusIn, found_prev]
          simp [appearance_verdict, now, before]
      | some earlier =>
          have same := departed earlier found_prev
          have before : statusIn prev container.name = some earlier.running := by
            simp [statusIn, found_prev]
          have departure := departure_verdict current earlier
          rw [same, now] at departure
          simp only [Option.bind_some, appearance_verdict, departure, now, before]
          cases earlier.running <;> cases container.running <;> simp

/-- Events of a comparison replayed over any set agree with the new reading on changed names and
leave every other name alone. -/
theorem mem_applyEvents_diff {prev current : List ContainerSnapshot}
    (distinct_prev : DistinctNames prev) (distinct_current : DistinctNames current)
    (name : String) (names : Finset String) :
    name ∈ applyEvents (diffContainerStates prev current) names ↔
      if statusIn prev name = statusIn current name then name ∈ names
      else statusIn current name = some true := by
  rw [applyEvents, mem_replay_iff, verdict_diffContainerStates distinct_prev distinct_current]
  by_cases same : statusIn prev name = statusIn current name <;> simp [same]

/-- One comparison carries the running set of the first reading to that of the second. -/
theorem applyEvents_diff {prev current : List ContainerSnapshot}
    (distinct_prev : DistinctNames prev) (distinct_current : DistinctNames current) :
    applyEvents (diffContainerStates prev current) (runningNames prev) = runningNames current := by
  ext name
  rw [mem_applyEvents_diff distinct_prev distinct_current, mem_runningNames distinct_prev,
    mem_runningNames distinct_current]
  split
  · rename_i same
    rw [same]
  · rfl

/-- The events of all comparisons along a sequence of readings, in emission order. -/
def eventsAlong : List ContainerSnapshot → List (List ContainerSnapshot) → List GuestEvent
  | _, [] => []
  | prev, current :: later => diffContainerStates prev current ++ eventsAlong current later

/-- The last reading of a sequence. -/
def lastReading : List ContainerSnapshot → List (List ContainerSnapshot) → List ContainerSnapshot
  | prev, [] => prev
  | _, current :: later => lastReading current later

theorem applyEvents_append (earlier later : List GuestEvent) (names : Finset String) :
    applyEvents (earlier ++ later) names = applyEvents later (applyEvents earlier names) := by
  rw [applyEvents, List.filterMap_append, replay_append]
  rfl

/-- Over a whole run of the poller the events reconstruct the running set of the last reading, and
a single comparison is silent about a name listed in both readings with one running flag. -/
theorem polled_events_reconstruct_running :
    (∀ (first : List ContainerSnapshot) (later : List (List ContainerSnapshot)),
      (∀ reading ∈ first :: later, DistinctNames reading) →
      applyEvents (eventsAlong first later) (runningNames first) =
        runningNames (lastReading first later)) ∧
    (∀ prev current : List ContainerSnapshot, DistinctNames prev → DistinctNames current →
      ∀ earlier ∈ prev, ∀ container ∈ current, earlier.name = container.name →
        earlier.running = container.running →
        ∀ event ∈ diffContainerStates prev current, ∀ change ∈ event.change?,
          change.subject ≠ container.name) := by
  constructor
  · intro first later distinct
    induction later generalizing first with
    | nil => rfl
    | cons current later ih =>
        have distinct_first := distinct first List.mem_cons_self
        have distinct_later : ∀ reading ∈ current :: later, DistinctNames reading :=
          fun reading member => distinct reading (List.mem_cons_of_mem first member)
        have distinct_current := distinct_later current List.mem_cons_self
        rw [eventsAlong, applyEvents_append, applyEvents_diff distinct_first distinct_current]
        exact ih current distinct_later
  · intro prev current distinct_prev distinct_current earlier listed_prev container listed same_name
      same_flag event emitted change changed
    have unchanged : statusIn prev container.name = statusIn current container.name := by
      rw [(statusIn_eq_some_iff distinct_prev).mpr ⟨earlier, listed_prev, same_name, same_flag⟩,
        (statusIn_eq_some_iff distinct_current).mpr ⟨container, listed, rfl, rfl⟩]
    have silent := verdict_diffContainerStates distinct_prev distinct_current container.name
    rw [if_pos unchanged] at silent
    exact verdict_eq_none_iff.mp silent change (List.mem_filterMap.mpr ⟨event, emitted, changed⟩)

/-- A container seen starting and stopping is reconstructed as gone, and one that keeps running is
not mentioned. -/
theorem polled_events_of_web_and_db :
    let db : ContainerSnapshot := ⟨"db", "running", 7, "/db", "t0", none, []⟩
    let web : ContainerSnapshot := ⟨"web", "running", 8, "/web", "t1", none, ["8080:80"]⟩
    let exited : ContainerSnapshot := { web with status := "exited", exitCode := some 0 }
    applyEvents (eventsAlong [db] [[db, web], [exited, db]]) (runningNames [db]) =
        runningNames [exited, db] ∧
      ∀ event ∈ diffContainerStates [db, web] [exited, db], ∀ change ∈ event.change?,
        change.subject ≠ "db" := by
  intro db web exited
  have reconstruct := polled_events_reconstruct_running
  refine ⟨reconstruct.1 [db] [[db, web], [exited, db]] (by decide), ?_⟩
  exact reconstruct.2 [db, web] [exited, db] (by decide) (by decide) db (by decide) db (by decide)
    rfl rfl

end Pelagos.Guest
