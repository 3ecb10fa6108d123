import Cameo.Supervisor.Effects

/-!
# Port exclusivity

`start` refuses a port on which another endpoint runs, but an endpoint that has exited and waits
out its restart backoff does not run, and its restart checks no port.  Two endpoints can therefore
end up running on one port.  What rules this out is that no start passes its port check while
another tenant of the port awaits its restart: then no two endpoints on one port ever *hold
capacity*, and only a start can make an endpoint hold it.
-/

namespace Cameo.Supervisor

open Library Store

/-- No two tracked endpoints with running processes share a port. -/
def PortsExclusive (map : EndpointMap) : Prop :=
  ∀ a ∈ map.entries, ∀ b ∈ map.entries, a.processRunning = true → b.processRunning = true →
    a.port = b.port → a.id = b.id

instance (map : EndpointMap) : Decidable (PortsExclusive map) :=
  inferInstanceAs (Decidable (∀ a ∈ map.entries, ∀ b ∈ map.entries, a.processRunning = true →
    b.processRunning = true → a.port = b.port → a.id = b.id))

/-- No two tracked endpoints that run or await a restart share a port. -/
def PortsHeld (map : EndpointMap) : Prop :=
  ∀ a ∈ map.entries, ∀ b ∈ map.entries, a.holdsCapacity = true → b.holdsCapacity = true →
    a.port = b.port → a.id = b.id

theorem PortsHeld.exclusive {map : EndpointMap} (h : PortsHeld map) : PortsExclusive map := by
  intro a ha b hb hrunA hrunB hport
  exact h a ha b hb (by simp [Endpoint.holdsCapacity, hrunA])
    (by simp [Endpoint.holdsCapacity, hrunB]) hport

/-- Operations on existing endpoints only ever free ports. -/
theorem PortsHeld.of_kept {before after : EndpointMap} (h : PortsHeld before)
    (hkept : ∀ endpoint ∈ after.entries, ∃ old ∈ before.entries, Endpoint.Kept old endpoint) :
    PortsHeld after := by
  intro a ha b hb hholdsA hholdsB hport
  obtain ⟨oldA, holdA, hkeptA⟩ := hkept a ha
  obtain ⟨oldB, holdB, hkeptB⟩ := hkept b hb
  have hports : oldA.port = oldB.port :=
    calc
      oldA.port = a.port := hkeptA.port.symm
      _ = b.port := hport
      _ = oldB.port := hkeptB.port
  calc
    a.id = oldA.id := hkeptA.id
    _ = oldB.id :=
      h oldA holdA oldB holdB (hkeptA.capacity hholdsA) (hkeptB.capacity hholdsB) hports
    _ = b.id := hkeptB.id.symm

/-- The condition on a step: a start that passes its port check and admission finds no other tenant
of its port waiting for an automatic restart. -/
def PortSettled (sys : Sys) : Label → Prop
  | .start req io => (checkPort req io sys.sup.endpoints).result = .ok () →
      (decided req io sys.sup).result.toBool = true →
        ∀ endpoint ∈ sys.sup.endpoints.entries, endpoint.id ≠ req.id → endpoint.port = req.port →
          (endpoint.refresh (io.holders endpoint.id)).1.awaitsRestart = false
  | .call _ => True

/-- After a port check that passes on a settled port, no other tenant of the port holds capacity,
now or later. -/
theorem idle_of_settled {req : StartRequest} {io : StartIo} {sup : Supervisor}
    (hport : (checkPort req io sup.endpoints).result = .ok ())
    (hsettled : ∀ endpoint ∈ sup.endpoints.entries, endpoint.id ≠ req.id →
      endpoint.port = req.port →
        (endpoint.refresh (io.holders endpoint.id)).1.awaitsRestart = false)
    {endpoint : Endpoint} (hmem : endpoint ∈ (decided req io sup).map.entries)
    (hid : endpoint.id ≠ req.id) (hsame : endpoint.port = req.port) :
    endpoint.holdsCapacity = false := by
  obtain ⟨middle, hmiddle, hlate⟩ := (arbitrate_refreshes req io (leasedIds sup.leases)
    (checkPort req io sup.endpoints).map).evolved endpoint hmem
  have hmiddleId : middle.id ≠ req.id := fun heq ↦ hid (hlate.id.trans heq)
  have hmiddlePort : middle.port = req.port := hlate.port.symm.trans hsame
  have hidle : middle.holdsCapacity = false := by
    rcases checkPort_ok hport hmiddle with
      ⟨hown, -⟩ | ⟨-, -, hstopped, old, hold, rfl⟩ | ⟨-, hother, -⟩
    · exact absurd hown hmiddleId
    · have hkept := Endpoint.kept_refresh (io.holders old.id) old
      have hawaits := hsettled old hold (fun heq ↦ hmiddleId (hkept.id.trans heq))
        (hkept.port.symm.trans hmiddlePort)
      simp [Endpoint.holdsCapacity, hstopped, hawaits]
    · exact absurd hmiddlePort hother
  cases hholds : endpoint.holdsCapacity with
  | false => rfl
  | true =>
    rw [hlate.capacity hholds] at hidle
    cases hidle

/-- A start that finds its port settled keeps ports held once. -/
theorem portsHeld_start (codec : Codec) {sup : Supervisor} {req : StartRequest} {io : StartIo}
    (h : PortsHeld sup.endpoints)
    (hsettled : (checkPort req io sup.endpoints).result = .ok () →
      (decided req io sup).result.toBool = true →
        ∀ endpoint ∈ sup.endpoints.entries, endpoint.id ≠ req.id → endpoint.port = req.port →
          (endpoint.refresh (io.holders endpoint.id)).1.awaitsRestart = false) :
    PortsHeld (start codec req io sup).sup.endpoints := by
  cases hresult : (start codec req io sup).result with
  | error e =>
    exact h.of_kept fun _ ↦ (evolved_start_of_error codec hresult).kept
  | ok view =>
    obtain ⟨victims, hlaunched⟩ := start_ok codec hresult
    have hnew := Endpoint.kept_refresh io.view (newEndpoint req io)
    have hadmitted : (decided req io sup).result.toBool = true := by
      rw [hlaunched.decided]
      rfl
    have hfree := @idle_of_settled req io sup hlaunched.port (hsettled hlaunched.port hadmitted)
    have hrest : PortsHeld (decided req io sup).map :=
      h.of_kept fun _ ↦ (decided_refreshes req io sup).evolved.kept
    have hnewId : ((newEndpoint req io).refresh io.view).1.id = req.id := hnew.id
    have hnewPort : ((newEndpoint req io).refresh io.view).1.port = req.port := hnew.port
    rw [hlaunched.endpoints]
    intro a ha b hb hholdsA hholdsB hsame
    rw [Keyed.Table.mem_insert, Keyed.Table.entries_retain, List.mem_filter, hnewId] at ha hb
    rcases ha with rfl | ⟨⟨ha, -⟩, hneA⟩ <;> rcases hb with rfl | ⟨⟨hb, -⟩, hneB⟩
    · rfl
    · rw [hfree hb hneB (hsame.symm.trans hnewPort)] at hholdsB
      cases hholdsB
    · rw [hfree ha hneA (hsame.trans hnewPort)] at hholdsA
      cases hholdsA
    · exact hrest a ha b hb hholdsA hholdsB hsame

/-- Every step that finds its port settled keeps ports held once. -/
theorem portsHeld_step (codec : Codec) (sys : Sys) (label : Label)
    (h : PortsHeld sys.sup.endpoints) (hsettled : PortSettled sys label) :
    PortsHeld (sys.step codec label).sup.endpoints := by
  cases label with
  | start req io => exact portsHeld_start codec h hsettled
  | call call => exact h.of_kept fun _ hmem ↦ kept_perform codec sys call hmem

/-- In every run whose starts find their ports settled, no state has two running endpoints on one
port. -/
theorem portsExclusive_of_settled {codec : Codec} {sup : Supervisor} (hinitial : Initial codec sup)
    {labels : List Label} (hsettled : Run.Meets (Sys.step codec) PortSettled (.fresh sup) labels)
    {early : List Label} (hearly : early <+: labels) :
    PortsExclusive ((Sys.fresh sup).run codec early).sup.endpoints := by
  apply PortsHeld.exclusive
  refine Run.invariant_reached (fun sys ↦ PortsHeld sys.sup.endpoints)
    (fun sys label h hcond ↦ portsHeld_step codec sys label h hcond) ?_ hsettled hearly
  change PortsHeld sup.endpoints
  rw [hinitial.endpoints.1]
  intro a ha
  exact absurd ha List.not_mem_nil

/-- Two models on two ports: no tenant of either port awaits a restart. -/
def twoPorts : List Label := [
  .start (.simple "alpha" 8080 0 0 true) (.plain 0 ⟨101, 1⟩),
  .start (.simple "beta" 8081 0 0 true) (.plain 0 ⟨102, 2⟩)]

theorem portsExclusive_of_settled_two :
    PortsExclusive ((Sys.fresh .default).run .constant twoPorts).sup.endpoints := by
  have hsettled : Run.Meets (Sys.step .constant) PortSettled (.fresh .default) twoPorts :=
    ⟨fun _ _ ↦ by decide, fun _ _ ↦ by decide, trivial⟩
  exact portsExclusive_of_settled .default hsettled (List.prefix_refl _)

/-- An endpoint crashes, another model is started on its port during the restart backoff, and the
first one is then restarted: both run on port 8080. -/
def restartOntoTakenPort : List Label := [
  .start (.simple "alpha" 8080 0 0 true) (.plain 0 ⟨101, 1⟩),
  .call (.servedModels fun _ ↦ .exited 10000000000),
  .start (.simple "beta" 8080 0 0 true) (.plain 11000000000 ⟨102, 2⟩),
  .call (.servedModels fun _ ↦ .respawn 13000000000 ⟨103, 3⟩)]

theorem not_portsExclusive_restartOntoTakenPort :
    ¬ PortsExclusive ((Sys.fresh .default).run .constant
      restartOntoTakenPort).sup.endpoints := by
  decide

end Cameo.Supervisor
