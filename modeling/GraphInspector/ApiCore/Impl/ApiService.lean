import GraphInspector.Data.Run
import GraphInspector.Model.Lifecycle

/-!
Reset control of the `ApiService`: the API database binding with its gate for public reads, the runtimes that
construct publications, and the installation of a publication under the authority of a runtime generation.
-/

namespace Kgi

open Data

variable {P G : Type} [DecidableEq G]

inductive ApiDbGenerationUpdate (G : Type) where
  | retired (generation : G)
  | published (generation : G)
  deriving DecidableEq, Repr

inductive ApiDbSnapshot (G : Type) where
  | running (current : Option G) (publicReadsEnabled : Bool)
  | stopped
  deriving DecidableEq, Repr

inductive ApiDbUpdateError where
  | invalidGeneration
  | stopped
  deriving DecidableEq, Repr

namespace ApiDbSnapshot

def new : ApiDbSnapshot G :=
  .running none true

def update (snapshot : ApiDbSnapshot G) (isValid : G → Bool) :
    ApiDbGenerationUpdate G → Except ApiDbUpdateError (ApiDbSnapshot G)
  | .retired generation =>
    match snapshot with
    | .stopped => .error .stopped
    | .running current enabled =>
      if current = some generation then .ok (.running none enabled) else .ok snapshot
  | .published generation =>
    match snapshot with
    | .stopped => .error .stopped
    | .running current enabled =>
      if current = some generation then .ok snapshot
      else if isValid generation then .ok (.running (some generation) enabled)
      else .error .invalidGeneration

def beginRebuild : ApiDbSnapshot G → ApiDbSnapshot G
  | .running _ _ => .running none false
  | .stopped => .stopped

def setPublicReadsEnabled (snapshot : ApiDbSnapshot G) (enabled : Bool) : ApiDbSnapshot G :=
  match snapshot with
  | .running current _ => .running current enabled
  | .stopped => .stopped

def stop (_ : ApiDbSnapshot G) : ApiDbSnapshot G :=
  .stopped

def publicReadsEnabled : ApiDbSnapshot G → Bool
  | .running _ enabled => enabled
  | .stopped => false

end ApiDbSnapshot

inductive ApiServiceError where
  | controlUnavailable
  | publicationRuntimeFailed (diagnostic : String)
  | encodingSchedulerFailed (diagnostic : String)
  deriving DecidableEq, Repr

structure RuntimePublicationInstaller where
  runtimeGeneration : Nat
  recoveryMode : RecoveryMode
  deriving DecidableEq, Repr

inductive PublicationInstallOutcome where
  | installed
  | superseded
  deriving DecidableEq, Repr

abbrev JoinAnswer := Option (Except ApiServiceError Unit)

structure OwnedPublicationRuntime where
  installer : RuntimePublicationInstaller
  retiringPredecessor : Option RuntimePublicationInstaller
  deriving DecidableEq, Repr

def OwnedPublicationRuntime.joinRetiringPredecessor (runtime : OwnedPublicationRuntime)
    (join : JoinAnswer) : OwnedPublicationRuntime × JoinAnswer :=
  match runtime.retiringPredecessor, join with
  | none, _ => (runtime, some (.ok ()))
  | some _, none => (runtime, none)
  | some _, some result => ({ runtime with retiringPredecessor := none }, some result)

inductive ApiRuntimeSlot where
  | awaitReset
  | running (runtime : OwnedPublicationRuntime)
  | stopping (runtime : Option OwnedPublicationRuntime)
  | stopped
  deriving DecidableEq, Repr

inductive ApiServiceEffect where
  | started (installer : RuntimePublicationInstaller)
  | installed (installer : RuntimePublicationInstaller)
  | superseded (installer : RuntimePublicationInstaller)
  deriving DecidableEq, Repr

structure ApiService (P G : Type) where
  runtime : ApiRuntimeSlot
  runtimeGeneration : Nat
  apiDb : ApiDbSnapshot G
  currentPublication : Option P
  trace : List ApiServiceEffect

inductive ApiServiceInput (P G : Type) where
  | updateApiDbGeneration (update : ApiDbGenerationUpdate G) (isValid : G → Bool)
  | reset (recoveryMode : RecoveryMode) (joinBefore joinAfter : JoinAnswer)
  | install (installer : RuntimePublicationInstaller) (publication : P)
  | beginShutdown
  | finishShutdown

namespace ApiService

def new : ApiService P G where
  runtime := .awaitReset
  runtimeGeneration := 0
  apiDb := .new
  currentPublication := none
  trace := []

def updateApiDbGeneration (service : ApiService P G) (update : ApiDbGenerationUpdate G)
    (isValid : G → Bool) : ApiService P G × Except ApiServiceError Unit :=
  match service.apiDb.update isValid update with
  | .ok snapshot => ({ service with apiDb := snapshot }, .ok ())
  | .error _ => (service, .error .controlUnavailable)

def advanceRuntimeGeneration (service : ApiService P G) (recoveryMode : RecoveryMode) :
    ApiService P G × RuntimePublicationInstaller :=
  let installer : RuntimePublicationInstaller := ⟨service.runtimeGeneration + 1, recoveryMode⟩
  ({ service with
    runtimeGeneration := service.runtimeGeneration + 1
    apiDb := if recoveryMode = .rebuild then service.apiDb.beginRebuild else service.apiDb
    trace := service.trace ++ [.started installer] }, installer)

def replaceRuntime (service : ApiService P G) (recoveryMode : RecoveryMode) (joinAfter : JoinAnswer) :
    ApiService P G × JoinAnswer :=
  let (advanced, installer) := service.advanceRuntimeGeneration recoveryMode
  match service.runtime with
  | .running predecessor =>
    let successor : OwnedPublicationRuntime := ⟨installer, some predecessor.installer⟩
    let (successor, joined) := successor.joinRetiringPredecessor joinAfter
    ({ advanced with runtime := .running successor }, joined)
  | _ => ({ advanced with runtime := .running ⟨installer, none⟩ }, some (.ok ()))

def reset (service : ApiService P G) (recoveryMode : RecoveryMode) (joinBefore joinAfter : JoinAnswer) :
    ApiService P G × JoinAnswer :=
  match service.runtime with
  | .stopping _ => (service, some (.error .controlUnavailable))
  | .stopped => (service, some (.error .controlUnavailable))
  | .awaitReset => service.replaceRuntime recoveryMode joinAfter
  | .running installed =>
    let (installed, joined) := installed.joinRetiringPredecessor joinBefore
    let service := { service with runtime := .running installed }
    match joined with
    | some (.ok ()) => service.replaceRuntime recoveryMode joinAfter
    | joined => (service, joined)

def install (service : ApiService P G) (installer : RuntimePublicationInstaller) (publication : P) :
    ApiService P G × PublicationInstallOutcome :=
  if service.runtimeGeneration ≠ installer.runtimeGeneration then
    ({ service with trace := service.trace ++ [.superseded installer] }, .superseded)
  else
    ({ service with
      currentPublication := some publication
      apiDb :=
        if installer.recoveryMode = .rebuild then service.apiDb.setPublicReadsEnabled true
        else service.apiDb
      trace := service.trace ++ [.installed installer] }, .installed)

def beginShutdown (service : ApiService P G) : ApiService P G :=
  match service.runtime with
  | .stopped => service
  | .awaitReset => { service with runtime := .stopping none, apiDb := service.apiDb.stop }
  | .running installed =>
    { service with runtime := .stopping (some installed), apiDb := service.apiDb.stop }
  | .stopping _ => { service with apiDb := service.apiDb.stop }

def finishShutdown (service : ApiService P G) : Option (ApiService P G) :=
  match service.runtime with
  | .stopping _ => some { service with runtime := .stopped, currentPublication := none }
  | _ => none

def step (service : ApiService P G) : ApiServiceInput P G → Option (ApiService P G)
  | .updateApiDbGeneration update isValid => some (service.updateApiDbGeneration update isValid).1
  | .reset recoveryMode joinBefore joinAfter => some (service.reset recoveryMode joinBefore joinAfter).1
  | .install installer publication =>
    if .started installer ∈ service.trace then some (service.install installer publication).1 else none
  | .beginShutdown => some service.beginShutdown
  | .finishShutdown => service.finishShutdown

end ApiService

end Kgi
