import Mathlib.Data.List.Infix
import Mathlib.Logic.Function.Basic
import Understack.Lib.Attempts
import Understack.Lib.PyText

/-! The Dex operator: `internal/controller/client_controller.go`, `secret_manager.go` and
`dex/client.go`. A run of `Reconcile` is a program of calls to Kubernetes and to Dex. -/
namespace Understack.Dexop
open PyText Attempts

structure NamespacedName where
  namespaceName : Text
  name : Text
  deriving DecidableEq

structure ClientSpec where
  name : Text
  secretName : Text
  secretNamespace : Text
  generateSecret : Bool
  redirectURIs : List Text
  logoUrl : Text
  trustedPeers : List Text
  isPublic : Bool
  deriving DecidableEq

/-- A resource as Kubernetes stores it. -/
structure Client where
  spec : ClientSpec
  finalizers : List Text
  deletionRequested : Bool
  deriving DecidableEq

/-- A resource in memory, with the fields of its spec that are not serialized. -/
structure Loaded extends Client where
  secretValue : Text
  issuer : Text

/-- A client of Dex, by its id. -/
structure DexClient where
  secret : Text
  redirectURIs : List Text
  trustedPeers : List Text
  isPublic : Bool
  name : Text
  logoUrl : Text
  deriving DecidableEq

/-- What Kubernetes and Dex store; of a Secret, its data. -/
structure Stored where
  clients : NamespacedName → Option Client
  secrets : NamespacedName → Option (List (Text × Text))
  dex : Text → Option DexClient

structure Error where
  /-- `errors.IsNotFound` of a Kubernetes error. -/
  isNotFound : Bool
  text : Text

def dexFinalizer : Text := "dex.rax.io/finalizer".toList

/-- `strings.Contains(strings.ToLower(err.Error()), "not found")`. -/
def Error.mentionsNotFound (e : Error) : Bool :=
  decide ("not found".toList <:+: e.text.map Char.toLower)

/-- What the operator runs with: which calls fail, the passwords it draws, and the choices of Dex.
A call that fails is no answer that an object is missing, a drawn password has the length that is
asked for, Dex says of a client that it does not have that it was not found, and the ids and the
secrets that Dex makes up are not empty ids and not as long as the passwords. -/
structure Env where
  faults : ℕ → Option (Fault Error)
  faults_found : ∀ n f, faults n = some f → f.error.isNotFound = false
  issuer : Text
  discoveredIssuer : Text
  password : ℕ → Except Error Text
  password_length : ∀ n p, password n = .ok p → p.length = 48
  unknownClient : Text
  unknownClient_text : Error.mentionsNotFound ⟨false, unknownClient⟩ = true
  newId : ℕ → Text
  newId_ne : ∀ n, newId n ≠ []
  newSecret : Bool → ℕ → Text
  newSecret_length : ∀ p n, (newSecret p n).length ≠ 48

abbrev Op := Program Stored Error

namespace Env

variable (env : Env)

/-- A call that reads an object, with the error of a missing one. -/
def fetch {α : Type} (find : Stored → Option α) (missing : Error) : Op α :=
  call env.faults fun _ s => match find s with
    | some a => (.ok a, s)
    | none => (.error missing, s)

/-! The calls to Kubernetes. -/

def objectNotFound : Error := ⟨true, "not found".toList⟩

def getClient (k : NamespacedName) : Op Client := env.fetch (fun s => s.clients k) objectNotFound

/-- A resource that is to be deleted is gone with its last finalizer. -/
def updateClient (k : NamespacedName) (c : Client) : Op Unit :=
  call env.faults fun _ s => match s.clients k with
    | some _ =>
      let stored := if c.deletionRequested && c.finalizers.isEmpty then none else some c
      (.ok (), { s with clients := Function.update s.clients k stored })
    | none => (.error objectNotFound, s)

def getSecret (k : NamespacedName) : Op (List (Text × Text)) :=
  env.fetch (fun s => s.secrets k) objectNotFound

def createSecret (k : NamespacedName) (data : List (Text × Text)) : Op Unit :=
  call env.faults fun _ s => match s.secrets k with
    | some _ => (.error ⟨false, "already exists".toList⟩, s)
    | none => (.ok (), { s with secrets := Function.update s.secrets k (some data) })

def updateSecret (k : NamespacedName) (data : List (Text × Text)) : Op Unit :=
  call env.faults fun _ s => match s.secrets k with
    | some _ => (.ok (), { s with secrets := Function.update s.secrets k (some data) })
    | none => (.error objectNotFound, s)

/-! The calls to Dex. A client is created unless there is one, an update writes what is not empty,
and neither an update nor a delete fails for a client that Dex does not have. -/

def getOauth2Client (clientId : Text) : Op DexClient :=
  env.fetch (fun s => s.dex clientId) ⟨false, env.unknownClient⟩

/-- The client that the `n`-th call creates. -/
def newClient (c : Loaded) (n : ℕ) : DexClient where
  secret := if c.secretValue = [] then env.newSecret c.spec.isPublic n else c.secretValue
  redirectURIs := c.spec.redirectURIs
  trustedPeers := c.spec.trustedPeers
  isPublic := c.spec.isPublic
  name := c.spec.name
  logoUrl := c.spec.logoUrl

def createOauth2Client (c : Loaded) : Op Unit :=
  call env.faults fun n s =>
    let id := if c.spec.name = [] then env.newId n else c.spec.name
    match s.dex id with
    | some _ => (.ok (), s)
    | none => (.ok (), { s with dex := Function.update s.dex id (some (env.newClient c n)) })

def removeOauth2Client (clientId : Text) : Op Unit :=
  call env.faults fun _ s => (.ok (), { s with dex := Function.update s.dex clientId none })

/-- What `UpdateClient` makes of a client. -/
def merge (spec : ClientSpec) (old : DexClient) : DexClient :=
  { old with
    redirectURIs := if spec.redirectURIs = [] then old.redirectURIs else spec.redirectURIs
    trustedPeers := if spec.trustedPeers = [] then old.trustedPeers else spec.trustedPeers
    name := if spec.name = [] then old.name else spec.name
    logoUrl := if spec.logoUrl = [] then old.logoUrl else spec.logoUrl }

def patchClient (spec : ClientSpec) : Op Unit :=
  call env.faults fun _ s => match s.dex spec.name with
    | some old =>
      (.ok (), { s with dex := Function.update s.dex spec.name (some (merge spec old)) })
    | none => (.ok (), s)

/-- A Dex that does not support discovery is covered by a configured issuer. -/
def getIssuer : Op Text :=
  if env.issuer ≠ [] then pure env.issuer
  else call env.faults fun _ s => (.ok env.discoveredIssuer, s)

/-- Dex has no update of a secret, so that the client is made anew. -/
def updateOauth2Client (c : Loaded) : Op Unit := do
  let existing ← env.getOauth2Client c.spec.name
  if existing.secret ≠ c.secretValue ∨ existing.isPublic ≠ c.spec.isPublic then
    env.removeOauth2Client c.spec.name
    env.createOauth2Client c
  env.patchClient c.spec

/-! The secret manager. -/

def secretKey : Text := "client-secret".toList

def secretOf (spec : ClientSpec) : NamespacedName := ⟨spec.secretNamespace, spec.secretName⟩

def readSecret (k : NamespacedName) : Op Text := do
  let data ← env.getSecret k
  match data.lookup secretKey with
  | some value => pure value
  | none => throw ⟨false, "client-secret key not found".toList⟩

def secretData (c : Loaded) (value : Text) : List (Text × Text) :=
  [(secretKey, value), ("issuer".toList, c.issuer), ("client-id".toList, c.spec.name)]

def writeSecret (c : Loaded) (value : Text) : Op (List (Text × Text)) := do
  env.createSecret (secretOf c.spec) (secretData c value)
  pure (secretData c value)

/-- `SecretManager.generateSecret`. -/
def generatePassword (c : Loaded) : Op (List (Text × Text)) := do
  let res ← draw env.password
  env.writeSecret c res

/-! The reconciler. -/

/-- `SetControllerReference` refuses an owner in another namespace. -/
def setControllerReference (k secret : NamespacedName) : Op Unit :=
  if k.namespaceName ≠ [] ∧ secret.namespaceName ≠ k.namespaceName then
    throw ⟨false, "cross-namespace owner references are disallowed".toList⟩
  else pure ()

def generateSecret (k : NamespacedName) (c : Loaded) : Op Text := do
  let data ← env.generatePassword c
  setControllerReference k (secretOf c.spec)
  env.updateSecret (secretOf c.spec) data
  match data.lookup "secret".toList with
  | some value => pure value
  | none => pure []

def readOrGenerateSecret (k : NamespacedName) (c : Loaded) : Op Text := do
  match ← reify (env.readSecret (secretOf c.spec)) with
  | .ok secret => pure secret
  | .error e =>
    if e.isNotFound && c.spec.generateSecret then env.generateSecret k c
    else throw e

/-- The namespace of the Secret, by default that of the resource. -/
def inNamespace (k : NamespacedName) (spec : ClientSpec) : ClientSpec :=
  if spec.secretNamespace = [] then { spec with secretNamespace := k.namespaceName } else spec

def manageSecret (k : NamespacedName) (c : Loaded) : Op Loaded := do
  if c.spec.secretName = [] then pure c
  else
    let c := { c with spec := inNamespace k c.spec }
    let value ← env.readOrGenerateSecret k c
    pure { c with secretValue := value }

def addFinalizer (k : NamespacedName) (c : Loaded) : Op Loaded := do
  if dexFinalizer ∈ c.finalizers then pure c
  else
    let c := { c with finalizers := c.finalizers ++ [dexFinalizer] }
    env.updateClient k c.toClient
    pure c

/-- Whether deletion was requested, after it was handled. -/
def handleDeletion (k : NamespacedName) (c : Loaded) : Op Bool := do
  if c.deletionRequested then
    if dexFinalizer ∈ c.finalizers then
      env.removeOauth2Client c.spec.name
      env.updateClient k
        { c.toClient with finalizers := c.finalizers.filter fun f => f ≠ dexFinalizer }
    pure true
  else pure false

def getClientSpec (k : NamespacedName) : Op (Option Loaded) := do
  match ← reify (env.getClient k) with
  | .error e => if e.isNotFound then pure none else throw e
  | .ok c =>
    let issuer ← env.getIssuer
    pure (some ⟨c, [], issuer⟩)

/-- Also after a creation the client counts as one that exists. -/
def createClient (c : Loaded) : Op Bool := do
  match ← reify (env.getOauth2Client c.spec.name) with
  | .ok _ => pure true
  | .error e =>
    if e.mentionsNotFound then
      env.createOauth2Client c
      pure true
    else throw e

def reconcile (k : NamespacedName) : Op Unit := do
  match ← env.getClientSpec k with
  | none => pure ()
  | some c =>
    let deleteRequested ← env.handleDeletion k c
    if deleteRequested then pure ()
    else
      let c ← env.addFinalizer k c
      let c ← env.manageSecret k c
      let alreadyExists ← env.createClient c
      if alreadyExists then env.updateOauth2Client c

end Env

end Understack.Dexop
