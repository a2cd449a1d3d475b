import GraphInspector.Data.Sequence
import GraphInspector.ApiCore.Impl.ApiService

/-!
The installation authority of the runtimes, and when the gate for public reads is open.
-/

namespace Kgi

open Data

namespace ApiService

variable {P G : Type} {service next : ApiService P G} {input : ApiServiceInput P G}
variable {trace : List ApiServiceEffect} {installer : RuntimePublicationInstaller}

/-!
What one step can do.
-/

def SameGate (before after : ApiDbSnapshot G) : Prop :=
  after = .stopped ∨ (before ≠ .stopped ∧ after ≠ .stopped ∧
    after.publicReadsEnabled = before.publicReadsEnabled)

theorem SameGate.refl (snapshot : ApiDbSnapshot G) : SameGate snapshot snapshot := by
  cases snapshot with
  | running current enabled => exact Or.inr ⟨by simp, by simp, rfl⟩
  | stopped => exact Or.inl rfl

inductive Transition (service next : ApiService P G) : Prop
  | quiet (hgeneration : next.runtimeGeneration = service.runtimeGeneration)
    (hgate : SameGate service.apiDb next.apiDb) (htrace : next.trace = service.trace)
  | started (recoveryMode : RecoveryMode)
    (hgeneration : next.runtimeGeneration = service.runtimeGeneration + 1)
    (hgate : next.apiDb =
      if recoveryMode = .rebuild then service.apiDb.beginRebuild else service.apiDb)
    (htrace : next.trace = service.trace ++ [.started ⟨service.runtimeGeneration + 1, recoveryMode⟩])
  | installed (installer : RuntimePublicationInstaller)
    (hauthority : service.runtimeGeneration = installer.runtimeGeneration)
    (hgeneration : next.runtimeGeneration = service.runtimeGeneration)
    (hgate : next.apiDb =
      if installer.recoveryMode = .rebuild then service.apiDb.setPublicReadsEnabled true
      else service.apiDb)
    (htrace : next.trace = service.trace ++ [.installed installer])
  | superseded (installer : RuntimePublicationInstaller)
    (hgeneration : next.runtimeGeneration = service.runtimeGeneration)
    (hgate : next.apiDb = service.apiDb)
    (htrace : next.trace = service.trace ++ [.superseded installer])

theorem Transition.of_replaceRuntime (recoveryMode : RecoveryMode) (joinAfter : JoinAnswer) :
    Transition service (service.replaceRuntime recoveryMode joinAfter).1 := by
  unfold replaceRuntime
  dsimp only [advanceRuntimeGeneration]
  split
  . exact .started recoveryMode rfl rfl rfl
  . exact .started recoveryMode rfl rfl rfl

theorem Transition.of_runtime (slot : ApiRuntimeSlot) (h : Transition { service with runtime := slot } next) :
    Transition service next := by
  cases h with
  | quiet hgeneration hgate htrace => exact .quiet hgeneration hgate htrace
  | started mode hgeneration hgate htrace => exact .started mode hgeneration hgate htrace
  | installed installer hauthority hgeneration hgate htrace =>
    exact .installed installer hauthority hgeneration hgate htrace
  | superseded installer hgeneration hgate htrace => exact .superseded installer hgeneration hgate htrace

theorem Transition.of_reset (recoveryMode : RecoveryMode) (joinBefore joinAfter : JoinAnswer) :
    Transition service (service.reset recoveryMode joinBefore joinAfter).1 := by
  unfold reset
  split
  . exact .quiet rfl (.refl _) rfl
  . exact .quiet rfl (.refl _) rfl
  . exact .of_replaceRuntime recoveryMode joinAfter
  . dsimp only
    split
    . exact .of_runtime _ (.of_replaceRuntime recoveryMode joinAfter)
    . exact .quiet rfl (.refl _) rfl

variable [DecidableEq G]

theorem Transition.of_updateApiDbGeneration (update : ApiDbGenerationUpdate G) (isValid : G → Bool) :
    Transition service (service.updateApiDbGeneration update isValid).1 := by
  unfold updateApiDbGeneration
  split
  . next snapshot hupdate =>
    refine .quiet rfl ?_ rfl
    cases hbefore : service.apiDb with
    | stopped =>
      rw [hbefore] at hupdate
      cases update with
      | retired generation => cases hupdate
      | published generation => cases hupdate
    | running current enabled =>
      rw [hbefore] at hupdate
      cases update with
      | retired generation =>
        dsimp only [ApiDbSnapshot.update] at hupdate
        split at hupdate
        . cases hupdate
          exact Or.inr ⟨by simp, by simp, rfl⟩
        . cases hupdate
          exact .refl _
      | published generation =>
        dsimp only [ApiDbSnapshot.update] at hupdate
        split at hupdate
        . cases hupdate
          exact .refl _
        . split at hupdate
          . cases hupdate
            exact Or.inr ⟨by simp, by simp, rfl⟩
          . cases hupdate
  . exact .quiet rfl (.refl _) rfl

theorem Transition.of_step (hstep : service.step input = some next) : Transition service next := by
  cases input with
  | updateApiDbGeneration update isValid =>
    cases hstep
    exact .of_updateApiDbGeneration update isValid
  | reset recoveryMode joinBefore joinAfter =>
    cases hstep
    exact .of_reset recoveryMode joinBefore joinAfter
  | install installer publication =>
    dsimp only [step] at hstep
    split at hstep
    . cases hstep
      unfold install
      split
      . exact .superseded installer rfl rfl rfl
      . next hauthority => exact .installed installer (not_not.mp hauthority) rfl rfl rfl
    . cases hstep
  | beginShutdown =>
    cases hstep
    unfold beginShutdown
    split
    . exact .quiet rfl (.refl _) rfl
    . exact .quiet rfl (Or.inl rfl) rfl
    . exact .quiet rfl (Or.inl rfl) rfl
    . exact .quiet rfl (Or.inl rfl) rfl
  | finishShutdown =>
    dsimp only [step, finishShutdown] at hstep
    split at hstep
    . cases hstep
      exact .quiet rfl (.refl _) rfl
    . cases hstep

/-!
The gate.
-/

def Reopened (trace : List ApiServiceEffect) : Prop :=
  ∀ before installer after, trace = before ++ .started installer :: after →
    installer.recoveryMode = .rebuild →
    ∃ other, .installed other ∈ after ∧ other.recoveryMode = .rebuild

theorem not_reopened_started (hmode : installer.recoveryMode = .rebuild) :
    ¬ Reopened (trace ++ [.started installer]) := by
  intro h
  obtain ⟨other, hmem, -⟩ := h trace installer [] rfl hmode
  cases hmem

theorem reopened_installed (hmode : installer.recoveryMode = .rebuild) :
    Reopened (trace ++ [.installed installer]) := by
  intro before other after heq _
  rcases split_append heq with ⟨rest, rfl, -⟩ | ⟨rest, -, hlast⟩
  . exact ⟨installer, by simp, hmode⟩
  . have hmem : .started other ∈ [ApiServiceEffect.installed installer] := by
      rw [hlast]
      simp
    cases List.mem_singleton.mp hmem

theorem reopened_append {effect : ApiServiceEffect}
    (hstarted : ∀ installer, installer.recoveryMode = .rebuild → effect ≠ .started installer)
    (hinstalled : ∀ installer, installer.recoveryMode = .rebuild → effect ≠ .installed installer) :
    Reopened (trace ++ [effect]) ↔ Reopened trace := by
  constructor
  . intro h before installer after heq hmode
    obtain ⟨other, hmem, hother⟩ := h before installer (after ++ [effect]) (by rw [heq]; simp) hmode
    rcases List.mem_append.mp hmem with hmem | hmem
    . exact ⟨other, hmem, hother⟩
    . exact absurd (List.mem_singleton.mp hmem).symm (hinstalled other hother)
  . intro h before installer after heq hmode
    rcases split_append heq with ⟨rest, rfl, htrace⟩ | ⟨rest, -, hlast⟩
    . obtain ⟨other, hmem, hother⟩ := h before installer rest htrace hmode
      exact ⟨other, List.mem_append_left _ hmem, hother⟩
    . have hmem : .started installer ∈ [effect] := by
        rw [hlast]
        simp
      exact absurd (List.mem_singleton.mp hmem).symm (hstarted installer hmode)

structure Governed (service : ApiService P G) : Prop where
  known : ∀ installer, .started installer ∈ service.trace →
    installer.runtimeGeneration ≤ service.runtimeGeneration
  later : ∀ before installer after other, service.trace = before ++ .started installer :: after →
    .started other ∈ before → other.runtimeGeneration < installer.runtimeGeneration
  authority : ∀ before installer after other, service.trace = before ++ .started installer :: after →
    .installed other ∈ after → installer.runtimeGeneration ≤ other.runtimeGeneration
  gate : service.apiDb ≠ .stopped → (service.apiDb.publicReadsEnabled = true ↔ Reopened service.trace)

omit [DecidableEq G] in
theorem Governed.new : (new : ApiService P G).Governed := by
  have hnil : ∀ before installer after,
      ([] : List ApiServiceEffect) ≠ before ++ .started installer :: after := by simp
  constructor
  case known =>
    intro installer hmem
    cases hmem
  case later => exact fun before installer after _ heq => absurd heq (hnil before installer after)
  case authority => exact fun before installer after _ heq => absurd heq (hnil before installer after)
  case gate =>
    refine fun _ => ⟨fun _ => ?_, fun _ => rfl⟩
    exact fun before installer after heq => absurd heq (hnil before installer after)

omit [DecidableEq G] in
theorem Governed.append (h : service.Governed) {effect : ApiServiceEffect}
    (hgeneration : next.runtimeGeneration = service.runtimeGeneration)
    (htrace : next.trace = service.trace ++ [effect]) (hstarted : ∀ installer, effect ≠ .started installer)
    (hinstalled : ∀ installer, effect = .installed installer →
      service.runtimeGeneration = installer.runtimeGeneration)
    (hgate : next.apiDb ≠ .stopped → (next.apiDb.publicReadsEnabled = true ↔ Reopened next.trace)) :
    next.Governed := by
  have hsplit : ∀ before installer after, next.trace = before ++ .started installer :: after →
      ∃ rest, after = rest ++ [effect] ∧ service.trace = before ++ .started installer :: rest := by
    intro before installer after heq
    rw [htrace] at heq
    rcases split_append heq with hrest | ⟨rest, -, hlast⟩
    . exact hrest
    . have hmem : .started installer ∈ [effect] := by
        rw [hlast]
        simp
      exact absurd (List.mem_singleton.mp hmem).symm (hstarted installer)
  constructor
  case known =>
    intro installer hmem
    rw [htrace] at hmem
    rw [hgeneration]
    rcases List.mem_append.mp hmem with hmem | hmem
    . exact h.known installer hmem
    . exact absurd (List.mem_singleton.mp hmem).symm (hstarted installer)
  case later =>
    intro before installer after other heq hother
    obtain ⟨rest, -, htrace'⟩ := hsplit before installer after heq
    exact h.later before installer rest other htrace' hother
  case authority =>
    intro before installer after other heq hother
    obtain ⟨rest, rfl, htrace'⟩ := hsplit before installer after heq
    rcases List.mem_append.mp hother with hother | hother
    . exact h.authority before installer rest other htrace' hother
    . rw [← hinstalled other (List.mem_singleton.mp hother).symm]
      apply h.known
      rw [htrace']
      simp
  case gate => exact hgate

omit [DecidableEq G] in
theorem Governed.start (h : service.Governed) {recoveryMode : RecoveryMode}
    (hgeneration : next.runtimeGeneration = service.runtimeGeneration + 1)
    (htrace : next.trace = service.trace ++ [.started ⟨service.runtimeGeneration + 1, recoveryMode⟩])
    (hgate : next.apiDb ≠ .stopped → (next.apiDb.publicReadsEnabled = true ↔ Reopened next.trace)) :
    next.Governed := by
  have hsplit : ∀ before installer after, next.trace = before ++ .started installer :: after →
      (∃ rest, after = rest ++ [.started ⟨service.runtimeGeneration + 1, recoveryMode⟩] ∧
        service.trace = before ++ .started installer :: rest) ∨
      (before = service.trace ∧ after = [] ∧ installer = ⟨service.runtimeGeneration + 1, recoveryMode⟩) := by
    intro before installer after heq
    rw [htrace] at heq
    rcases split_append heq with hrest | ⟨rest, hbefore, hlast⟩
    . exact Or.inl hrest
    . rw [List.singleton_eq_append_iff] at hlast
      rcases hlast with ⟨rfl, hlast⟩ | ⟨-, hlast⟩
      . cases hlast
        exact Or.inr ⟨by simpa using hbefore, rfl, rfl⟩
      . cases hlast
  constructor
  case known =>
    intro installer hmem
    rw [htrace] at hmem
    rw [hgeneration]
    rcases List.mem_append.mp hmem with hmem | hmem
    . exact Nat.le_succ_of_le (h.known installer hmem)
    . cases List.mem_singleton.mp hmem
      exact le_refl _
  case later =>
    intro before installer after other heq hother
    rcases hsplit before installer after heq with ⟨rest, -, htrace'⟩ | ⟨rfl, -, rfl⟩
    . exact h.later before installer rest other htrace' hother
    . exact Nat.lt_succ_of_le (h.known other hother)
  case authority =>
    intro before installer after other heq hother
    rcases hsplit before installer after heq with ⟨rest, rfl, htrace'⟩ | ⟨-, rfl, -⟩
    . rcases List.mem_append.mp hother with hother | hother
      . exact h.authority before installer rest other htrace' hother
      . cases List.mem_singleton.mp hother
    . cases hother
  case gate => exact hgate

theorem Governed.step (h : service.Governed) (hstep : service.step input = some next) : next.Governed := by
  cases Transition.of_step hstep with
  | quiet hgeneration hgate htrace =>
    refine ⟨?_, ?_, ?_, ?_⟩
    . rw [hgeneration, htrace]
      exact h.known
    . rw [htrace]
      exact h.later
    . rw [htrace]
      exact h.authority
    . intro hrunning
      rcases hgate with hstopped | ⟨hbefore, -, hsame⟩
      . exact absurd hstopped hrunning
      . rw [hsame, htrace]
        exact h.gate hbefore
  | started recoveryMode hgeneration hgate htrace =>
    apply h.start hgeneration htrace
    intro hrunning
    rw [hgate] at hrunning ⊢
    rw [htrace]
    cases recoveryMode with
    | rebuild =>
      rw [if_pos rfl] at hrunning ⊢
      refine ⟨?_, fun hreopened => absurd hreopened (not_reopened_started rfl)⟩
      intro henabled
      cases hdb : service.apiDb with
      | running current enabled =>
        rw [hdb] at henabled
        cases henabled
      | stopped =>
        rw [hdb] at henabled
        cases henabled
    | resync =>
      rw [if_neg (by decide)] at hrunning ⊢
      rw [reopened_append]
      . exact h.gate hrunning
      . intro installer hmode heq
        cases heq
        cases hmode
      . intro installer hmode heq
        cases heq
  | installed installer hauthority hgeneration hgate htrace =>
    apply h.append hgeneration htrace
    . intro other heq
      cases heq
    . intro other heq
      cases heq
      exact hauthority
    . intro hrunning
      rw [hgate] at hrunning ⊢
      rw [htrace]
      by_cases hmode : installer.recoveryMode = .rebuild
      . rw [if_pos hmode] at hrunning ⊢
        refine ⟨fun _ => reopened_installed hmode, fun _ => ?_⟩
        cases hdb : service.apiDb with
        | running current enabled => rfl
        | stopped =>
          rw [hdb] at hrunning
          exact absurd rfl hrunning
      . rw [if_neg hmode] at hrunning ⊢
        rw [reopened_append]
        . exact h.gate hrunning
        . intro other _ heq
          cases heq
        . intro other hother heq
          cases heq
          exact hmode hother
  | superseded installer hgeneration hgate htrace =>
    apply h.append hgeneration htrace
    . intro other heq
      cases heq
    . intro other heq
      cases heq
    . rw [hgate, htrace, reopened_append]
      . exact h.gate
      . intro other _ heq
        cases heq
      . intro other _ heq
        cases heq

theorem governed_run {inputs : List (ApiServiceInput P G)} (hrun : run step new inputs = some service) :
    service.Governed :=
  run.invariant (fun _ _ _ h hstep => h.step hstep) .new hrun

def Superseded (trace : List ApiServiceEffect) (installer : RuntimePublicationInstaller) : Prop :=
  ∃ before later after, trace = before ++ .started later :: after ∧ .started installer ∈ before

/--
In every run, a superseded runtime changes neither the current publication nor the gate, the gate stays closed
from a Rebuild reset until a runtime started at or after that reset installs, and while the service is not
stopped the gate is open exactly if every Rebuild reset has been followed by the installation of a publication
of a Rebuild.
-/
theorem public_reads_gate {inputs : List (ApiServiceInput P G)}
    (hrun : run step new inputs = some service) :
    (∀ installer publication, Superseded service.trace installer →
      (service.install installer publication).1.currentPublication = service.currentPublication ∧
      (service.install installer publication).1.apiDb = service.apiDb) ∧
    (∀ before installer after, service.trace = before ++ .started installer :: after →
      installer.recoveryMode = .rebuild →
      (∀ other, .installed other ∈ after → other.runtimeGeneration < installer.runtimeGeneration) →
      service.apiDb.publicReadsEnabled = false) ∧
    (service.apiDb ≠ .stopped → (service.apiDb.publicReadsEnabled = true ↔ Reopened service.trace)) := by
  have h := governed_run hrun
  refine ⟨?_, ?_, h.gate⟩
  . rintro installer publication ⟨before, later, after, heq, hmem⟩
    have hlater := h.later before later after installer heq hmem
    have hknown := h.known later (by rw [heq]; simp)
    unfold install
    rw [if_pos (by omega)]
    exact ⟨rfl, rfl⟩
  . intro before installer after heq hmode hinstalled
    cases hdb : service.apiDb with
    | stopped => rfl
    | running current enabled =>
      cases enabled with
      | false => rfl
      | true =>
        have hrunning : service.apiDb ≠ .stopped := by
          rw [hdb]
          simp
        have hreopened := (h.gate hrunning).mp (by rw [hdb]; rfl)
        obtain ⟨other, hmem, -⟩ := hreopened before installer after heq hmode
        have hauthority := h.authority before installer after other heq hmem
        exact absurd (hinstalled other hmem) (Nat.not_lt.mpr hauthority)

/--
The gate reopens when the runtime of a Rebuild installs.
-/
theorem public_reads_gate_reopened :
    ∃ service : ApiService Unit Unit,
      run step new [.reset .rebuild none none, .install ⟨1, .rebuild⟩ ()] = some service ∧
      service.apiDb ≠ .stopped ∧ Reopened service.trace := by
  obtain ⟨service, hrun, hrunning, hopen⟩ : ∃ service : ApiService Unit Unit,
      run step new [.reset .rebuild none none, .install ⟨1, .rebuild⟩ ()] = some service ∧
      service.apiDb ≠ .stopped ∧ service.apiDb.publicReadsEnabled = true :=
    ⟨_, rfl, by decide, rfl⟩
  exact ⟨service, hrun, hrunning, ((public_reads_gate hrun).2.2 hrunning).mp hopen⟩

/--
A Resync that replaces an unfinished Rebuild installs its publication and leaves the gate closed.
-/
theorem resync_after_rebuild_stays_closed :
    ∃ service : ApiService Unit Unit,
      run step new [.reset .rebuild none none, .reset .resync none (some (.ok ())),
        .install ⟨2, .resync⟩ ()] = some service ∧
      service.runtimeGeneration = 2 ∧ .installed ⟨2, .resync⟩ ∈ service.trace ∧
      service.currentPublication = some () ∧ service.apiDb ≠ .stopped ∧
      service.apiDb.publicReadsEnabled = false :=
  ⟨_, rfl, rfl, by decide, rfl, by decide, rfl⟩

end ApiService

end Kgi
