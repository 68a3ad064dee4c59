import MemoryBudget.Proofs.Dialogue.History

/-!
# Dialogues with marks

Two calls that bring equal objects cannot be told apart by what is said afterwards. So the same client is made to mark
what its calls bring, with numbers in the order of the calls, on a service that passes the marks along. The client
forgets the marks when something comes back. If the marked service does what the plain one does, the marked dialogue
is the plain one with marks, step by step and however deeply calls are nested.
-/

set_option autoImplicit false

namespace MemoryBudget

variable {P P' : Protocol} {σ τ φ α β : Type}

def Progress.map {ω ω' ρ ρ' : Type} (work : ω → ω') (reply : ρ → ρ') : Progress ω ρ → Progress ω' ρ'
  | .replied result => .replied (reply result)
  | .waiting pending => .waiting (work pending)

structure Marking (P P' : Protocol) where
  call : P'.Call → P.Call
  reply : (request : P'.Call) → P'.Reply request → P.Reply (call request)
  query : P'.Query → P.Query
  answer : (asked : P'.Query) → P'.Answer asked → P.Answer (query asked)
  /-- The same call, marked from this number on. -/
  mark : Nat → (request : P.Call) → { marked : P'.Call // call marked = request }
  /-- How many marks a call takes. -/
  weight : P.Call → Nat
  /-- The same answer. It takes no marks. -/
  markAnswer : (asked : P'.Query) → P.Answer (query asked) → P'.Answer asked
  answer_of_marked : ∀ asked given, answer asked (markAnswer asked given) = given

namespace Marking

variable (marking : Marking P P')

/-- The script that marks its calls. Beside its memory it keeps the next number. -/
def script (keep : α → β) : Script P φ α → Script P' (φ × Nat) β
  | .done result => .done (keep result)
  | .consult next => .consult fun memory => script keep (next memory.1)
  | .remember memory next => .consult fun before => .remember (memory, before.2) (script keep next)
  | .call request next =>
      .consult fun memory => .remember (memory.1, memory.2 + marking.weight request) <|
        .call (marking.mark memory.2 request).1 fun reply =>
          script keep (next ((marking.mark memory.2 request).2 ▸ marking.reply _ reply))

def client (client : Client P φ) : Client P' (φ × Nat) :=
  fun asked => marking.script (marking.markAnswer asked) (client (marking.query asked))

def bare : Utterance P' → Utterance P
  | .called request => .called (marking.call request)
  | .replied request reply => .replied (marking.call request) (marking.reply request reply)
  | .asked query => .asked (marking.query query)
  | .answered query answer => .answered (marking.query query) (marking.answer query answer)

/-- What is said when a client marks its calls: each call carries the marks that come next, and no answer carries
one. The number tells how many marks have been taken. -/
inductive Marked : List (Utterance P') → Nat → Prop where
  | nothing : Marked [] 0
  | called {said : List (Utterance P')} {taken : Nat} (marked : Marked said taken) (request : P.Call) :
      Marked (said ++ [.called (marking.mark taken request).1]) (taken + marking.weight request)
  | replied {said : List (Utterance P')} {taken : Nat} (marked : Marked said taken) (request : P'.Call)
      (reply : P'.Reply request) : Marked (said ++ [.replied request reply]) taken
  | asked {said : List (Utterance P')} {taken : Nat} (marked : Marked said taken) (query : P'.Query) :
      Marked (said ++ [.asked query]) taken
  | answered {said : List (Utterance P')} {taken : Nat} (marked : Marked said taken) (query : P'.Query)
      (answer : P.Answer (marking.query query)) :
      Marked (said ++ [.answered query (marking.markAnswer query answer)]) taken

variable {marking} in
/-- What is heard of a call that progresses takes no marks. -/
theorem Marked.announced {marked : Service P' τ} {said : List (Utterance P')} {taken : Nat}
    (isMarked : marking.Marked said taken) (request : P'.Call) (progress : Progress (marked.Work request) (P'.Reply request)) :
    marking.Marked (said ++ [marked.announce request progress]) taken := by
  cases progress with
  | replied reply => exact isMarked.replied request reply
  | waiting pending => exact isMarked.asked (marked.query pending)

variable {marking} in
/-- What is brought by calls alone is numbered in the order of the calls. -/
theorem Marked.numbered {γ : Type} {brings : Utterance P' → List γ} {mint : Nat → γ}
    (called : ∀ taken request, brings (.called (marking.mark taken request).1) =
      (List.range' taken (marking.weight request)).map mint)
    (replied : ∀ request reply, brings (.replied request reply) = []) (asked : ∀ query, brings (.asked query) = [])
    (answered : ∀ query answer, brings (.answered query answer) = []) {said : List (Utterance P')} {taken : Nat}
    (isMarked : marking.Marked said taken) : said.flatMap brings = (List.range taken).map mint := by
  induction isMarked with
  | nothing => rfl
  | @called said taken _ request ih =>
      rw [List.flatMap_append, ih, List.flatMap_singleton, called, ← List.map_append, List.range_eq_range',
        List.range_eq_range', ← List.range'_append_1, Nat.zero_add]
  | replied _ request reply ih => rw [List.flatMap_append, ih, List.flatMap_singleton, replied, List.append_nil]
  | asked _ query ih => rw [List.flatMap_append, ih, List.flatMap_singleton, asked, List.append_nil]
  | answered _ query answer ih => rw [List.flatMap_append, ih, List.flatMap_singleton, answered, List.append_nil]

/-- The marked service does what the plain one does. -/
structure Commutes (marking : Marking P P') (marked : Service P' τ) (plain : Service P σ) where
  work : {request : P'.Call} → marked.Work request → plain.Work (marking.call request)
  asks : ∀ {request : P'.Call} (pending : marked.Work request),
    plain.query (work pending) = marking.query (marked.query pending)
  alike : τ → σ → Prop
  start : ∀ {state : τ} {state' : σ}, alike state state' → ∀ request,
    (plain.start (marking.call request) state').1 =
        (marked.start request state).1.map work (marking.reply request) ∧
      alike (marked.start request state).2 (plain.start (marking.call request) state').2
  resume : ∀ {state : τ} {state' : σ}, alike state state' → ∀ {request : P'.Call} (pending : marked.Work request)
    (answer : P.Answer (plain.query (work pending))),
    (plain.resume (work pending) answer state').1 =
        (marked.resume pending
          (marking.markAnswer _ (cast (congrArg P.Answer (asks pending)) answer)) state).1.map
            work (marking.reply request) ∧
      alike (marked.resume pending
          (marking.markAnswer _ (cast (congrArg P.Answer (asks pending)) answer)) state).2
        (plain.resume (work pending) answer state').2

namespace Commutes

variable {marking : Marking P P'} {marked : Service P' τ} {plain : Service P σ}

def answerTo (commutes : marking.Commutes marked plain) {request : P'.Call} (pending : marked.Work request)
    (answer : P.Answer (plain.query (commutes.work pending))) : P'.Answer (marked.query pending) :=
  marking.markAnswer _ (cast (congrArg P.Answer (commutes.asks pending)) answer)

variable (commutes : marking.Commutes marked plain)

inductive Stacks : {role : Role P} → {role' : Role P'} → Stack plain φ α role → Stack marked (φ × Nat) α role' →
    (role.Outcome α → role'.Outcome α) → Prop where
  | bottom : Stacks .bottom .bottom fun result => result
  | suspended {request : P'.Call} (pending : marked.Work request) {role : Role P} {role' : Role P'}
      {keep : role.Outcome α → role'.Outcome α}
      (next : P.Reply (marking.call request) → Script P φ (role.Outcome α)) {below : Stack plain φ α role}
      {below' : Stack marked (φ × Nat) α role'} (stacked : Stacks below below' keep) :
      Stacks (.suspended (commutes.work pending) next below)
        (.suspended pending (fun reply => marking.script keep (next (marking.reply request reply))) below')
        (commutes.answerTo pending)

inductive Moments (taken : Nat) : Moment plain φ α → Moment marked (φ × Nat) α → Prop where
  | intro {role : Role P} {role' : Role P'} {keep : role.Outcome α → role'.Outcome α}
      (script : Script P φ (role.Outcome α)) {stack : Stack plain φ α role} {stack' : Stack marked (φ × Nat) α role'}
      (stacked : commutes.Stacks stack stack' keep) (memory : φ) {state : σ} {state' : τ}
      (alike : commutes.alike state' state) :
      Moments taken ⟨role, script, stack, memory, state⟩
        ⟨role', marking.script keep script, stack', (memory, taken), state'⟩

variable {commutes}

theorem Moments.alike {taken : Nat} {moment : Moment plain φ α} {moment' : Moment marked (φ × Nat) α}
    (same : commutes.Moments taken moment moment') : commutes.alike moment'.state moment.state := by
  obtain ⟨script, stacked, memory, alike⟩ := same
  exact alike

theorem Moments.role {taken : Nat} {moment : Moment plain φ α} {moment' : Moment marked (φ × Nat) α}
    (same : commutes.Moments taken moment moment') : moment'.role = .client ↔ moment.role = .client := by
  obtain ⟨script, stacked, memory, alike⟩ := same
  cases stacked with
  | bottom => simp
  | suspended pending next below => simp

variable (commutes)

/-- Whoever is asked the query of a call answers it alike. -/
theorem client_eq (client : Client P φ) {request : P'.Call} (pending : marked.Work request) :
    marking.client client (marked.query pending) =
      marking.script (commutes.answerTo pending) (client (plain.query (commutes.work pending))) := by
  have general : ∀ query (same : query = marking.query (marked.query pending)),
      marking.client client (marked.query pending) =
        marking.script (fun answer => marking.markAnswer _ (cast (congrArg P.Answer same) answer)) (client query) := by
    intro query same
    subst same
    rfl
  exact general _ (commutes.asks pending)

theorem bare_answered {request : P'.Call} (pending : marked.Work request)
    (answer : P.Answer (plain.query (commutes.work pending))) :
    marking.bare (.answered (marked.query pending) (commutes.answerTo pending answer)) =
      .answered (plain.query (commutes.work pending)) answer := by
  have general : ∀ query (same : query = marking.query (marked.query pending)) (answer : P.Answer query),
      marking.bare (.answered (marked.query pending)
        (marking.markAnswer _ (cast (congrArg P.Answer same) answer))) = .answered query answer := by
    intro query same answer
    subst same
    exact congrArg (Utterance.answered _) (marking.answer_of_marked _ answer)
  exact general _ (commutes.asks pending) answer

/-- A call that progresses alike leads to the same moment. -/
theorem proceed (client : Client P φ) {request : P'.Call} {role : Role P} {role' : Role P'}
    {keep : role.Outcome α → role'.Outcome α}
    (next : P.Reply (marking.call request) → Script P φ (role.Outcome α)) {below : Stack plain φ α role}
    {below' : Stack marked (φ × Nat) α role'} (stacked : commutes.Stacks below below' keep) (memory : φ) (taken : Nat)
    (progressed : Progress (marked.Work request) (P'.Reply request) × τ)
    (progressed' : Progress (plain.Work (marking.call request)) (P.Reply (marking.call request)) × σ)
    (same : progressed'.1 = progressed.1.map commutes.work (marking.reply request))
    (alike : commutes.alike progressed.2 progressed'.2) :
    (Moment.proceed client next below memory progressed').1 =
        marking.bare (marked.announce request progressed.1) ∧
      (Moment.proceed (marking.client client)
        (fun reply => marking.script keep (next (marking.reply request reply))) below' (memory, taken) progressed).1 =
          marked.announce request progressed.1 ∧
        commutes.Moments taken (Moment.proceed client next below memory progressed').2
          (Moment.proceed (marking.client client)
            (fun reply => marking.script keep (next (marking.reply request reply))) below' (memory, taken)
              progressed).2 := by
  obtain ⟨progress, state⟩ := progressed
  obtain ⟨progress', state'⟩ := progressed'
  cases same
  cases progress with
  | replied reply => exact ⟨rfl, rfl, .intro _ stacked memory alike⟩
  | waiting pending =>
      refine ⟨congrArg Utterance.asked (commutes.asks pending), rfl, ?_⟩
      show commutes.Moments taken ⟨.answering (plain.query (commutes.work pending)), client _, _, _, _⟩
        ⟨.answering (marked.query pending), marking.client client (marked.query pending), _, _, _⟩
      rw [commutes.client_eq client pending]
      exact .intro _ (.suspended pending next stacked) memory alike

/-- A call without marks is the marked call without its marks. -/
theorem call (client : Client P φ) (request : P'.Call) {role : Role P} {role' : Role P'}
    {keep : role.Outcome α → role'.Outcome α}
    (next : P.Reply (marking.call request) → Script P φ (role.Outcome α)) {stack : Stack plain φ α role}
    {stack' : Stack marked (φ × Nat) α role'} (stacked : commutes.Stacks stack stack' keep) (memory : φ) (taken : Nat)
    {state : σ} {state' : τ} (alike : commutes.alike state' state) {said : List (Utterance P)}
    {later : Moment plain φ α}
    (moved : Moment.step client ⟨role, .call (marking.call request) next, stack, memory, state⟩ =
      .moved said later) :
    ∃ later', Moment.step (marking.client client)
        ⟨role', .call request fun reply => marking.script keep (next (marking.reply request reply)), stack',
          (memory, taken), state'⟩ =
        .moved [.called request, marked.announce request (marked.start request state').1] later' ∧
      commutes.Moments taken later later' ∧
        [.called request, marked.announce request (marked.start request state').1].map marking.bare = said := by
  cases moved
  obtain ⟨same, alike'⟩ := commutes.start alike request
  obtain ⟨heard, heard', mirrored⟩ := commutes.proceed client next stacked memory taken _ _ same alike'
  refine ⟨_, ?_, mirrored, ?_⟩
  · exact congrArg (fun utterance => Step.moved [.called request, utterance] _) heard'
  · exact congrArg (fun utterance => [.called (marking.call request), utterance]) heard.symm

/-- The same answer, given without marks and with them. -/
theorem answer (client : Client P φ) {request : P'.Call} (pending : marked.Work request) {role : Role P}
    {role' : Role P'} {keep : role.Outcome α → role'.Outcome α}
    (next : P.Reply (marking.call request) → Script P φ (role.Outcome α)) {below : Stack plain φ α role}
    {below' : Stack marked (φ × Nat) α role'} (stacked : commutes.Stacks below below' keep) (memory : φ) (taken : Nat)
    (given : P.Answer (plain.query (commutes.work pending))) {state : σ} {state' : τ}
    (alike : commutes.alike state' state) {said : List (Utterance P)} {later : Moment plain φ α}
    (moved : Moment.conclude client memory state (.suspended (commutes.work pending) next below) given =
      .moved said later) :
    ∃ later', Moment.conclude (marking.client client) (memory, taken) state'
        (.suspended pending (fun reply => marking.script keep (next (marking.reply request reply))) below')
        (commutes.answerTo pending given) =
        .moved [.answered (marked.query pending) (commutes.answerTo pending given),
          marked.announce request (marked.resume pending (commutes.answerTo pending given) state').1] later' ∧
      commutes.Moments taken later later' ∧
        [.answered (marked.query pending) (commutes.answerTo pending given),
          marked.announce request
            (marked.resume pending (commutes.answerTo pending given) state').1].map marking.bare = said := by
  cases moved
  obtain ⟨same, alike'⟩ := commutes.resume alike pending given
  obtain ⟨heard, heard', mirrored⟩ := commutes.proceed client next stacked memory taken _ _ same alike'
  refine ⟨_, ?_, mirrored, ?_⟩
  · exact congrArg (fun utterance => Step.moved
      [.answered (marked.query pending) (commutes.answerTo pending given), utterance] _) heard'
  · exact congrArg₂ (fun first second => [first, second]) (commutes.bare_answered pending given) heard.symm

/-- One step of the plain dialogue is one to three steps of the marked one. -/
theorem step (client : Client P φ) {moment later : Moment plain φ α} {moment' : Moment marked (φ × Nat) α}
    {said : List (Utterance P)} {before : List (Utterance P')} {taken : Nat}
    (mirrored : commutes.Moments taken moment moment') (isMarked : marking.Marked before taken)
    (moved : moment.step client = .moved said later) :
    ∃ said' later' taken', moment'.Leads (marking.client client) said' later' ∧
      commutes.Moments taken' later later' ∧ said'.map marking.bare = said ∧
        marking.Marked (before ++ said') taken' := by
  obtain @⟨role, role', keep, script, stack, stack', stacked, memory, state, state', alike⟩ := mirrored
  cases script with
  | consult next =>
      cases moved
      rw [← List.append_nil before] at isMarked
      exact ⟨[], _, taken, Moment.leads_of_step rfl, .intro (next memory) stacked memory alike, rfl, isMarked⟩
  | remember fresh next =>
      cases moved
      rw [← List.append_nil before] at isMarked
      exact ⟨[], _, taken, Moment.leads_of_silence rfl (Moment.leads_of_step rfl),
        .intro next stacked fresh alike, rfl, isMarked⟩
  | call request next =>
      have isCalled := isMarked.called request
      have silence : Moment.Leads (marking.client client)
          ⟨role', marking.script keep (.call request next), stack', (memory, taken), state'⟩ []
          ⟨role', .call (marking.mark taken request).1 fun reply =>
            marking.script keep (next ((marking.mark taken request).2 ▸ marking.reply _ reply)), stack',
              (memory, taken + marking.weight request), state'⟩ :=
        Moment.leads_of_silence rfl (Moment.leads_of_step rfl)
      -- The call is known to be the marked one without its marks, and no more of it matters.
      generalize taken + marking.weight request = taken' at isCalled silence
      generalize marking.mark taken request = marked' at isCalled silence
      obtain ⟨request', same⟩ := marked'
      subst same
      obtain ⟨later', moved', mirrored', said'⟩ :=
        commutes.call client request' next stacked memory taken' alike moved
      have announced := isCalled.announced request' (marked.start request' state').1
      rw [List.append_assoc] at announced
      exact ⟨_, later', taken', silence.trans (Moment.leads_of_step moved'), mirrored', said', announced⟩
  | done outcome =>
      cases stacked with
      | bottom => cases moved
      | @suspended request pending _ _ _ next _ _ below =>
          obtain ⟨later', moved', mirrored', said'⟩ :=
            commutes.answer client pending next below memory taken outcome alike moved
          have announced := (isMarked.answered (marked.query pending)
            (cast (congrArg P.Answer (commutes.asks pending)) outcome)).announced request
              (marked.resume pending (commutes.answerTo pending outcome) state').1
          rw [List.append_assoc] at announced
          exact ⟨_, later', taken, Moment.leads_of_step moved', mirrored', said', announced⟩

/-- Each dialogue is also had with marks, and cannot be told from that one but for the marks. -/
theorem leads {client : Client P φ} {script : Script P φ α} {memory : φ} {state : σ} {state' : τ}
    (alike : commutes.alike state' state) {said : List (Utterance P)} {moment : Moment plain φ α}
    (leads : (Moment.opening script memory state).Leads client said moment) :
    ∃ said' moment' taken,
      (Moment.opening (marking.script id script) (memory, 0) state').Leads (marking.client client) said' moment' ∧
      commutes.Moments taken moment moment' ∧ said'.map marking.bare = said ∧ marking.Marked said' taken := by
  induction leads with
  | here =>
      have stacked : commutes.Stacks (.bottom : Stack plain φ α .client) (.bottom : Stack marked (φ × Nat) α .client)
          fun result => result := .bottom
      have mirrored : commutes.Moments 0 (⟨.client, script, .bottom, memory, state⟩ : Moment plain φ α)
          (⟨.client, marking.script (fun result => result) script, .bottom, (memory, 0), state'⟩ :
            Moment marked (φ × Nat) α) := .intro script stacked memory alike
      exact ⟨[], _, 0, .here, mirrored, rfl, .nothing⟩
  | step _ moved ih =>
      obtain ⟨said', moment', taken, leads', mirrored, same, isMarked⟩ := ih
      obtain ⟨more', later', taken', leads'', mirrored', same', isMarked'⟩ :=
        commutes.step client mirrored isMarked moved
      refine ⟨said' ++ more', later', taken', leads'.trans leads'', mirrored', ?_, isMarked'⟩
      rw [List.map_append, same, same']

end Commutes

end Marking

end MemoryBudget
