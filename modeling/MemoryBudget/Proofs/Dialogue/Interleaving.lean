import MemoryBudget.Proofs.Dialogue.History

/-!
# Interleavings

Several clients may share a service, each in a thread of its own. What they do is interleaved at the starts of calls and
at the answers to queries, each of which is atomic. A call that waits is resumed whenever its own client has answered,
while in a dialogue it is always the call that was started last. So dialogues are interleavings, with one client.
-/

set_option autoImplicit false

namespace MemoryBudget

variable {P : Protocol} {σ φ α : Type}

/-- Clients that share a service may have said this, starting from the first state, and then the service is in this state
with these calls in progress. -/
inductive Service.Interleaving (service : Service P σ) (first : σ) :
    List (Utterance P) → σ → List service.Pending → Prop where
  | opening : service.Interleaving first [] first []
  | starts {said : List (Utterance P)} {state : σ} {works : List service.Pending} (request : P.Call)
      (before : service.Interleaving first said state works) :
      service.Interleaving first
        (said ++ [.called request, service.announce request (service.start request state).1])
        (service.start request state).2 (service.outstanding (service.start request state).1 ++ works)
  /-- Any of the calls in progress may go on. -/
  | resumes {said : List (Utterance P)} {state : σ} {later earlier : List service.Pending} {request : P.Call}
      {work : service.Work request} (answer : P.Answer (service.query work))
      (before : service.Interleaving first said state (later ++ ⟨request, work⟩ :: earlier)) :
      service.Interleaving first
        (said ++ [.answered (service.query work) answer,
          service.announce request (service.resume work answer state).1])
        (service.resume work answer state).2
        (later ++ service.outstanding (service.resume work answer state).1 ++ earlier)

/-- One client, however deeply its calls are nested. -/
theorem Moment.Leads.interleaving {service : Service P σ} {client : Client P φ} {script : Script P φ α} {memory : φ}
    {first : σ} {last : Moment service φ α} {said : List (Utterance P)}
    (leads : (Moment.opening script memory first).Leads client said last) :
    service.Interleaving first said last.state last.works := by
  apply leads.preserves
  · exact .opening
  · intro _ _ _ request before
    exact .starts request before
  · intro said state works request work answer before
    have innermost : service.Interleaving first said state ([] ++ ⟨request, work⟩ :: works) := before
    exact innermost.resumes answer

end MemoryBudget
