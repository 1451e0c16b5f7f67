import Mathlib.Data.List.DropRight
import Understack.Lib.PyText

/-! The connection of the NetApp SDK, which all managers of a process share. The managers of
`netapp/manager.py` and their clients replace it while they are constructed, and every SDK call
uses the one that is set when the call is made. -/
namespace Understack.Workflows.NetappConnections
open PyText

/-- A section of the configuration file. -/
structure NetAppConfig where
  hostname : Text
  username : Text
  password : Text
  deriving DecidableEq, Repr

structure HostConnection where
  host : Text
  username : Text
  password : Text
  deriving DecidableEq, Repr

/-- `HostConnection(config.hostname, username=.., password=..)`. -/
def connect (config : NetAppConfig) : HostConnection where
  host := config.hostname
  username := config.username
  password := config.password

/-- A connection that is set is not a mock, and its `_host` is there to be compared. -/
def needsConnection (connection : Option HostConnection) (config : NetAppConfig) : Bool :=
  match connection with
  | none => true
  | some c => c.host ≠ config.hostname

/-- `NetAppClient._setup_connection`, and the same statements of
`NetAppManager._setup_dependencies`. -/
def setupConnection (connection : Option HostConnection) (config : NetAppConfig) :
    Option HostConnection :=
  if needsConnection connection config then some (connect config) else connection

/-- The manager sets the connection up, and then the client that it constructs. -/
def setupDependencies (connection : Option HostConnection) (config : NetAppConfig) :
    Option HostConnection :=
  setupConnection (setupConnection connection config) config

/-- An SDK call of a manager, with the connection that it goes over. -/
structure Call where
  backend : NetAppConfig
  connection : Option HostConnection
  deriving DecidableEq, Repr

structure State where
  connection : Option HostConnection
  managers : List NetAppConfig
  calls : List Call
  deriving DecidableEq, Repr

inductive Step where
  | construct (config : NetAppConfig)
  | operate (manager : ℕ)
  deriving DecidableEq, Repr

/-- An operation names a manager by its place among those constructed so far. -/
def State.apply (s : State) : Step → State
  | .construct config =>
    { s with
      connection := setupDependencies s.connection config
      managers := s.managers ++ [config] }
  | .operate manager =>
    match s.managers[manager]? with
    | none => s
    | some backend => { s with calls := s.calls ++ [⟨backend, s.connection⟩] }

def run (steps : List Step) : State := steps.foldl State.apply ⟨none, [], []⟩

/-- The call is sent to the host of the manager's backend, with its username and password. -/
def Call.SentToOwn (call : Call) : Prop := call.connection = some (connect call.backend)

instance (call : Call) : Decidable call.SentToOwn := inferInstanceAs (Decidable (_ = _))

/-! The connection as a function of the constructions. -/

def constructed (steps : List Step) : List NetAppConfig :=
  steps.filterMap fun
    | .construct config => some config
    | .operate _ => none

/-- The last constructions, as far back as they name the host of the very last one. -/
def lastBlock (history : List NetAppConfig) : List NetAppConfig :=
  match history.getLast? with
  | none => []
  | some last => history.rtakeWhile fun config => config.hostname = last.hostname

theorem run_concat (steps : List Step) (step : Step) :
    run (steps ++ [step]) = (run steps).apply step := by
  simp [run, List.foldl_append]

theorem constructed_concat (steps : List Step) (step : Step) :
    constructed (steps ++ [step]) = constructed steps ++ constructed [step] := by
  simp [constructed]

theorem needsConnection_connect (config : NetAppConfig) :
    needsConnection (some (connect config)) config = false := by
  simp [needsConnection, connect]

/-- The second check finds what the first one has left. -/
theorem setupDependencies_eq (connection : Option HostConnection) (config : NetAppConfig) :
    setupDependencies connection config = setupConnection connection config := by
  unfold setupDependencies
  by_cases h : needsConnection connection config = true
  · have hset : setupConnection connection config = some (connect config) := if_pos h
    rw [hset, setupConnection, if_neg (by simp [needsConnection_connect])]
  · have hset : setupConnection connection config = connection := if_neg h
    rw [hset, hset]

theorem managers_run (steps : List Step) : (run steps).managers = constructed steps := by
  induction steps using List.reverseRecOn with
  | nil => rfl
  | append_singleton steps step ih =>
    rw [run_concat, constructed_concat, ← ih]
    cases step with
    | construct config => rfl
    | operate manager =>
      simp only [State.apply, constructed, List.filterMap_cons_none, List.filterMap_nil,
        List.append_nil]
      split <;> rfl

theorem lastBlock_concat (history : List NetAppConfig) (config : NetAppConfig) :
    lastBlock (history ++ [config]) =
      (history.rtakeWhile fun other => other.hostname = config.hostname) ++ [config] := by
  simp [lastBlock]

/-- A construction joins the last block when it names the same host, and starts a block of its
own otherwise. -/
theorem lastBlock_cases (history : List NetAppConfig) (config : NetAppConfig) :
    (∃ last, history.getLast? = some last ∧ last.hostname = config.hostname ∧
        lastBlock (history ++ [config]) = lastBlock history ++ [config]) ∨
      ((∀ last, history.getLast? = some last → last.hostname ≠ config.hostname) ∧
        lastBlock (history ++ [config]) = [config]) := by
  rw [lastBlock_concat]
  cases history using List.reverseRecOn with
  | nil => exact Or.inr ⟨by simp, by simp⟩
  | append_singleton history last =>
    by_cases h : last.hostname = config.hostname
    · refine Or.inl ⟨last, by simp, h, ?_⟩
      rw [lastBlock_concat, List.rtakeWhile_concat, h]
      simp
    · refine Or.inr ⟨by simpa using h, ?_⟩
      simp [h]

theorem head?_lastBlock_host {history : List NetAppConfig} {first last : NetAppConfig}
    (hf : (lastBlock history).head? = some first) (hl : history.getLast? = some last) :
    first.hostname = last.hostname := by
  have hm : first ∈ lastBlock history := List.mem_of_head? hf
  rw [lastBlock, hl] at hm
  simpa using List.mem_rtakeWhile_imp hm

theorem exists_getLast?_of_head? {history : List NetAppConfig} {first : NetAppConfig}
    (hf : (lastBlock history).head? = some first) : ∃ last, history.getLast? = some last := by
  cases hl : history.getLast? with
  | none => simp [lastBlock, hl] at hf
  | some last => exact ⟨last, rfl⟩

/-- What a construction does to the connection of the block before it. -/
theorem setupConnection_lastBlock (history : List NetAppConfig) (config : NetAppConfig) :
    setupConnection ((lastBlock history).head?.map connect) config =
      (lastBlock (history ++ [config])).head?.map connect := by
  cases hf : (lastBlock history).head? with
  | none =>
    have hempty : lastBlock history = [] := List.head?_eq_none_iff.mp hf
    rcases lastBlock_cases history config with ⟨last, -, -, hblock⟩ | ⟨-, hblock⟩
    · simp [hblock, hempty, setupConnection, needsConnection]
    · simp [hblock, setupConnection, needsConnection]
  | some first =>
    obtain ⟨last, hl⟩ := exists_getLast?_of_head? hf
    have hhost := head?_lastBlock_host hf hl
    rcases lastBlock_cases history config with ⟨last', hl', hsame, hblock⟩ | ⟨hother, hblock⟩
    · obtain rfl : last = last' := Option.some.inj (hl.symm.trans hl')
      simp [hblock, hf, setupConnection, needsConnection, connect, hhost, hsame]
    · have hne := hother last hl
      rw [← hhost] at hne
      simp [hblock, setupConnection, needsConnection, connect, hne]

/-- The connection is the one of the first construction of the last block. -/
theorem connection_run (steps : List Step) :
    (run steps).connection = (lastBlock (constructed steps)).head?.map connect := by
  induction steps using List.reverseRecOn with
  | nil => rfl
  | append_singleton steps step ih =>
    rw [run_concat, constructed_concat]
    cases step with
    | operate manager =>
      simp only [State.apply, constructed, List.filterMap_cons_none, List.filterMap_nil,
        List.append_nil]
      split <;> exact ih
    | construct config =>
      have happly : ((run steps).apply (.construct config)).connection =
          setupConnection (run steps).connection config := setupDependencies_eq _ config
      have hone : constructed [.construct config] = [config] := rfl
      rw [happly, ih, hone]
      exact setupConnection_lastBlock (constructed steps) config

theorem mem_calls {steps : List Step} {call : Call} :
    call ∈ (run steps).calls ↔
      ∃ before manager after, steps = before ++ .operate manager :: after ∧
        (constructed before)[manager]? = some call.backend ∧
        call.connection = (run before).connection := by
  induction steps using List.reverseRecOn with
  | nil => simp [run]
  | append_singleton steps step ih =>
    -- an operation of the longer run is one of the shorter run, or its last step
    have hsplit : (∃ before manager after, steps ++ [step] = before ++ .operate manager :: after ∧
        (constructed before)[manager]? = some call.backend ∧
        call.connection = (run before).connection) ↔
        (∃ before manager after, steps = before ++ .operate manager :: after ∧
          (constructed before)[manager]? = some call.backend ∧
          call.connection = (run before).connection) ∨
        ∃ manager, step = .operate manager ∧ (constructed steps)[manager]? = some call.backend ∧
          call.connection = (run steps).connection := by
      constructor
      · rintro ⟨before, manager, after, heq, h⟩
        cases after using List.reverseRecOn with
        | nil =>
          obtain ⟨rfl, hstep⟩ := List.append_inj' heq rfl
          exact Or.inr ⟨manager, List.head_eq_of_cons_eq hstep, h⟩
        | append_singleton after last =>
          rw [← List.cons_append, ← List.append_assoc] at heq
          obtain ⟨rfl, -⟩ := List.append_inj' heq rfl
          exact Or.inl ⟨before, manager, after, rfl, h⟩
      · rintro (⟨before, manager, after, rfl, h⟩ | ⟨manager, rfl, h⟩)
        · exact ⟨before, manager, after ++ [step], by simp, h⟩
        · exact ⟨steps, manager, [], rfl, h⟩
    rw [hsplit, ← ih, run_concat]
    cases step with
    | construct config => simp [State.apply]
    | operate manager =>
      simp only [State.apply, managers_run]
      cases hm : (constructed steps)[manager]? with
      | none => simp [hm]
      | some backend =>
        simp only [List.mem_append, List.mem_singleton, Step.operate.injEq, exists_eq_left', hm,
          Option.some.injEq]
        refine or_congr_right ⟨fun h => h ▸ ⟨rfl, rfl⟩, fun ⟨hb, hc⟩ => ?_⟩
        cases call
        cases hb
        cases hc
        rfl

/-- At every operation the host of the manager is the host of the last construction, and its
username and password are those of the first construction since which every one named that
host. -/
def EachConnected (steps : List Step) : Prop :=
  ∀ before manager after, steps = before ++ .operate manager :: after →
    ∀ backend, (constructed before)[manager]? = some backend →
      ∃ first, (lastBlock (constructed before)).head? = some first ∧
        first.hostname = backend.hostname ∧ first.username = backend.username ∧
        first.password = backend.password

theorem connect_eq_iff {a b : NetAppConfig} :
    connect a = connect b ↔
      a.hostname = b.hostname ∧ a.username = b.username ∧ a.password = b.password := by
  simp [connect]

theorem calls_sent_to_own_iff (steps : List Step) :
    (∀ call ∈ (run steps).calls, call.SentToOwn) ↔ EachConnected steps := by
  have hown {before : List Step} {backend : NetAppConfig} :
      (run before).connection = some (connect backend) ↔
        ∃ first, (lastBlock (constructed before)).head? = some first ∧
          first.hostname = backend.hostname ∧ first.username = backend.username ∧
          first.password = backend.password := by
    rw [connection_run, Option.map_eq_some_iff]
    simp only [connect_eq_iff]
  constructor
  · intro h before manager after hsteps backend hb
    exact hown.mp (h ⟨backend, _⟩ (mem_calls.mpr ⟨before, manager, after, hsteps, hb, rfl⟩))
  · intro h call hcall
    obtain ⟨before, manager, after, hsteps, hb, hc⟩ := mem_calls.mp hcall
    rw [Call.SentToOwn, hc]
    exact hown.mpr (h before manager after hsteps call.backend hb)

/-- Two sections of one host, each manager used right after it is constructed: the second one
keeps the login of the first. -/
theorem second_login_ignored :
    ¬ ∀ call ∈ (run [.construct ⟨"ontap".toList, "tenant-a".toList, "pa".toList⟩, .operate 0,
        .construct ⟨"ontap".toList, "tenant-b".toList, "pb".toList⟩, .operate 1]).calls,
      call.SentToOwn := by
  decide +kernel

/-! The handlers use a manager only until they construct the next one. -/

/-- A manager that was constructed last talks to its own host, whatever was constructed
before. -/
theorem host_of_last {steps : List Step} {last : NetAppConfig}
    (h : (constructed steps).getLast? = some last) :
    ∃ c, (run steps).connection = some c ∧ c.host = last.hostname := by
  obtain ⟨history, hhistory⟩ := List.getLast?_eq_some_iff.mp h
  have hne : (lastBlock (constructed steps)).head? ≠ none := by
    rw [hhistory, lastBlock_concat]
    simp
  obtain ⟨first, hf⟩ := Option.ne_none_iff_exists'.mp hne
  exact ⟨connect first, by rw [connection_run, hf]; rfl, head?_lastBlock_host hf h⟩

/-- Managers that are used only until the next one is constructed, over sections that give a
host one login, all talk to their own backends. -/
theorem sent_to_own_of_latest {steps : List Step}
    (hlatest : ∀ before manager after, steps = before ++ .operate manager :: after →
      (constructed before)[manager]? = (constructed before).getLast?)
    (hlogin : ∀ a ∈ constructed steps, ∀ b ∈ constructed steps, a.hostname = b.hostname →
      a.username = b.username ∧ a.password = b.password) :
    ∀ call ∈ (run steps).calls, call.SentToOwn := by
  intro call hcall
  obtain ⟨before, manager, after, rfl, hb, hc⟩ := mem_calls.mp hcall
  rw [hlatest before manager after rfl] at hb
  obtain ⟨c, hconnection, hhost⟩ := host_of_last hb
  have hmem {config : NetAppConfig} (h : config ∈ constructed before) :
      config ∈ constructed (before ++ .operate manager :: after) := by
    rw [constructed, List.filterMap_append]
    exact List.mem_append_left _ h
  rw [Call.SentToOwn, hc, hconnection]
  rw [connection_run, Option.map_eq_some_iff] at hconnection
  obtain ⟨first, hf, rfl⟩ := hconnection
  have hfirst : first ∈ constructed before := by
    have hm := List.mem_of_head? hf
    rw [lastBlock, hb] at hm
    exact (List.rtakeWhile_suffix _ _).subset hm
  have hsame := hlogin first (hmem hfirst) call.backend (hmem (List.mem_of_getLast? hb)) hhost
  rw [connect_eq_iff.mpr ⟨hhost, hsame⟩]

end Understack.Workflows.NetappConnections
