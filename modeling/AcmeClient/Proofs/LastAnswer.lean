import AcmeClient.Proofs.Calls

/-!
# Reads concern the last answer

A connection has an answer, a URL and an instant. A call changes them at different moments and may
fail in between. Whatever calls are made on it, and whatever happens to the session in between, what
is read concerns what came of the last request that the connection issued:

* `Turn` and `Talk` — calls on a connection and what happens elsewhere, with an account of the last
  request and of the instants that were told since;
* `Talk.held` — what came of that request, unless it was let go of;
* `Talk.Inv`, `inv_next` and `inv_after` — the connection has what the account says;
* `reads_concern_last_answer` — what every read gives after any turns.
-/

namespace AcmeClient

open Calendar

/-- What happens next: a call on the connection, or something else to the client, for example on
another connection. -/
inductive Turn where
  | here (o : ConnectionOperation) : Turn
  | elsewhere (f : Client → Client) : Turn

/-- A client and a connection, with an account of what happened on the connection: the requests on
record up to the last one that it issued, whether it was closed since, and the instants that were
told since, the last one first. -/
structure Talk where
  client : Client
  connection : Connection
  last : Option (List Request)
  isClosed : Bool
  told : List Instant

namespace Talk

def start (c : Client) : Talk :=
  ⟨c, .idle, none, false, []⟩

/-- What an operation gives back, and what it leaves. -/
def outcome (env : Environment) (t : Talk) (o : ConnectionOperation) :
    Except Fault Report × (Client × Connection) :=
  o.report.run env (t.client, t.connection)

/-- What follows a turn. -/
def next (env : Environment) (t : Talk) : Turn → Talk
  | .elsewhere f => { t with client := f t.client }
  | .here o =>
      let (result, client, connection) := t.outcome env o
      match o.target?.bind fun target => t.client.issued target.1 client with
      | some record => ⟨client, connection, some record, false, []⟩
      | none => {
          client, connection
          last := t.last
          isClosed := t.isClosed || o.isClose
          told := (o.told result).toList ++ t.told }

/-- What follows some turns on a new connection. -/
def after (env : Environment) (c : Client) (turns : List Turn) : Talk :=
  turns.foldl (next env) (start c)

variable (env : Environment) (t : Talk)

/-- The answer to the last request that the connection issued, and the URL of that request. -/
def heard : Option (Response × String) := do
  let record ← t.last
  let q ← record.getLast?
  match env.server record with
  | .response r => some (r, q.url)
  | .failure _ => none

/-- The same, unless the connection was closed since. -/
def held : Option (Response × String) :=
  if t.isClosed then none else t.heard env

/-- Whether the connection has what the account says. -/
structure Inv : Prop where
  holds : match t.held env with
    | none => t.connection.response = none
    | some (r, url) => t.connection = ⟨some r, some url, t.told.head?⟩
  tells : ∀ x ∈ t.told, t.told.head? = some x ∧
    ∃ r url reading, t.heard env = some (r, url) ∧ r.advice (env.clock reading) = .ok (some x)

variable {env : Environment} {t : Talk}

theorem inv_start (env : Environment) (c : Client) : (start c).Inv env :=
  ⟨rfl, nofun⟩

/-- After a call that issued a request nothing was told. -/
theorem inv_of_hears {c : Client} {connection : Connection} {record : List Request} {q : Request}
    (hq : record.getLast? = some q) (hears : connection.Hears q.url (env.server record)) :
    (Talk.mk c connection (some record) false []).Inv env := by
  refine ⟨?_, nofun⟩
  have hheld : (Talk.mk c connection (some record) false []).held env
      = match env.server record with
        | .response r => some (r, q.url)
        | .failure _ => none := by
    simp only [held, heard, Bool.false_eq_true, if_false, Option.bind_eq_bind, Option.bind_some, hq]
  rw [hheld]
  cases hreply : env.server record with
  | failure text =>
    rw [hreply] at hears
    exact hears
  | response r =>
    rw [hreply] at hears
    exact hears

/-- A call that sends keeps the account. -/
theorem inv_send (h : t.Inv env) {o : ConnectionOperation} {method : Method} {url : String}
    (ho : o.target? = some (method, url)) : (t.next env (.here o)).Inv env := by
  have hspeaks := Exchange.speaks_report ho env (t.client, t.connection)
  obtain ⟨hclose, htold⟩ := ConnectionOperation.quiet_of_target? ho
  rcases hrun : t.outcome env o with ⟨result, c, connection⟩
  rw [outcome] at hrun
  rw [hrun] at hspeaks
  simp only [next, outcome, hrun, ho, hclose, htold, Option.bind_some, Bool.or_false,
    Option.toList_none, List.nil_append]
  cases hspeaks with
  | silent new hsent hnew =>
    have hissued : t.client.issued method c = none := Client.issued_of_silent hsent hnew
    rw [hissued]
    exact ⟨h.holds, h.tells⟩
  | heard new rest q hsent hq hurl hrest hears =>
    have hissued : t.client.issued method c = some (t.client.sent ++ (new ++ [q])) :=
      Client.issued_of_heard hsent hq hrest
    rw [hissued]
    rw [← hurl] at hears
    exact inv_of_hears (by rw [← List.append_assoc, List.getLast?_concat]) hears

theorem heard_of_held {r : Response} {url : String} (h : t.held env = some (r, url)) :
    t.heard env = some (r, url) := by
  rw [held] at h
  split at h
  · cases h
  · exact h

/-- Of a connection that has an answer the account says which one. -/
theorem Inv.held_of_response (h : t.Inv env) {r : Response} (hr : t.connection.response = some r) :
    ∃ url, t.held env = some (r, url) ∧ t.connection = ⟨some r, some url, t.told.head?⟩ := by
  have hholds := h.holds
  cases hheld : t.held env with
  | none =>
    rw [hheld] at hholds
    rw [hr] at hholds
    cases hholds
  | some answer =>
    obtain ⟨r', url⟩ := answer
    rw [hheld] at hholds
    have hconnection : t.connection = ⟨some r', some url, t.told.head?⟩ := hholds
    rw [hconnection] at hr
    cases hr
    exact ⟨url, rfl, hconnection⟩

/-- A call that reads keeps the account: what it tells is what was told before, or the first instant
that is told. -/
theorem inv_read (h : t.Inv env) {o : ConnectionOperation} (ho : o.isRead = true) :
    (t.next env (.here o)).Inv env := by
  have hreads := Exchange.reads_report ho env (t.client, t.connection)
  obtain ⟨htarget, hclose⟩ := ConnectionOperation.quiet_of_isRead ho
  rcases hrun : t.outcome env o with ⟨result, c, connection⟩
  rw [outcome] at hrun
  rw [hrun] at hreads
  simp only [next, outcome, hrun, htarget, hclose, Option.bind_none, Bool.or_false]
  generalize o.told result = told at hreads
  cases hreads with
  | quiet => exact ⟨h.holds, h.tells⟩
  | @again r x hr hkept =>
    obtain ⟨url, -, hconnection⟩ := h.held_of_response hr
    have hhead : t.told.head? = some x := by
      rw [hconnection] at hkept
      exact hkept
    have hsame : (x :: t.told).head? = t.told.head? := hhead.symm
    refine ⟨?_, fun y hy => ?_⟩
    · have hholds := h.holds
      rw [← hsame] at hholds
      exact hholds
    · have hmem : y ∈ t.told := by
        rcases List.mem_cons.1 hy with rfl | hy
        · exact List.mem_of_mem_head? hhead
        · exact hy
      have htells := h.tells y hmem
      rw [← hsame] at htells
      exact htells
  | @first r x hr hnone hadvice =>
    obtain ⟨url, hheld, hconnection⟩ := h.held_of_response hr
    have htold : t.told = [] := by
      rw [hconnection] at hnone
      exact List.head?_eq_none_iff.1 hnone
    rw [htold]
    refine ⟨?_, fun y hy => ?_⟩
    · show match t.held env with | none => _ | some (r, url) => _
      rw [hheld]
      show ({ t.connection with retryAfter := some x } : Connection) = ⟨some r, some url, some x⟩
      rw [hconnection]
    · rw [List.mem_singleton.1 hy]
      exact ⟨rfl, r, url, _, heard_of_held hheld, hadvice⟩

/-- Closing keeps the account. -/
theorem inv_close (h : t.Inv env) : (t.next env (.here .close)).Inv env := by
  have hheld : (t.next env (.here .close)).held env = none := if_pos (Bool.or_true t.isClosed)
  refine ⟨?_, h.tells⟩
  rw [hheld]
  rfl

theorem inv_next (h : t.Inv env) (turn : Turn) : (t.next env turn).Inv env := by
  cases turn with
  | elsewhere f => exact ⟨h.holds, h.tells⟩
  | here o =>
    cases o with
    | sendPlain url wanted => exact inv_send h rfl
    | sendSigned url claims signing wanted => exact inv_send h rfl
    | fetchNonce url => exact inv_send h rfl
    | accept | readJson | readCertificates | links | location | retryAfter | refuseEarly | nonce =>
      exact inv_read h rfl
    | close => exact inv_close h

/-- The connection has what the account says, after any turns. -/
theorem inv_after (env : Environment) (c : Client) (turns : List Turn) :
    (after env c turns).Inv env := by
  induction turns using List.reverseRecOn with
  | nil => exact inv_start env c
  | append_singleton turns turn ih =>
    rw [after, List.foldl_append]
    exact inv_next ih turn

end Talk

/-- **Reads concern the last answer.** Whatever was done on a connection and elsewhere, what a call
reads from it is what it would read from a connection that has heard nothing but the answer to the
last request that this one issued, with the URL of that request and the instant that was told since.
It fails for want of a request where there is no such answer: none was issued, nothing came of the
last one, or the connection was closed since. All instants that were told since the last request are
one, and what its answer says at some reading of the clock. -/
theorem reads_concern_last_answer (env : Environment) (c : Client) (turns : List Turn)
    (o : ConnectionOperation) (ho : o.isRead = true) :
    let t := Talk.after env c turns
    ((t.outcome env o).1 =
      match t.held env with
      | none => .error (.usage .nothingSent)
      | some (r, url) => (o.report.run env (t.client, ⟨some r, some url, t.told.head?⟩)).1) ∧
    ∀ x ∈ t.told, t.told.head? = some x ∧ ∃ r url reading,
      t.heard env = some (r, url) ∧ r.advice (env.clock reading) = .ok (some x) := by
  intro t
  obtain ⟨hholds, htells⟩ := Talk.inv_after env c turns
  refine ⟨?_, htells⟩
  cases hheld : t.held env with
  | none =>
    rw [hheld] at hholds
    exact Exchange.report_of_nothing ho env t.client hholds
  | some answer =>
    rw [hheld] at hholds
    have hconnection : t.connection = ⟨some answer.1, some answer.2, t.told.head?⟩ := hholds
    rw [Talk.outcome, hconnection]

/-- A server that asks to come back in two minutes, and a clock that moves on by a second with each
reading. -/
def patientEnvironment : Environment where
  server _ := .response ⟨200, none, ⟨[("Retry-After", "120")]⟩, []⟩
  clock k := ⟨k * second, some 0⟩

/-- An instant that is told twice, before and after the clock was read elsewhere. -/
def twiceTold : List Turn :=
  [.here (.sendPlain "https://acme.test/a" Exchange.jsonType), .here .retryAfter,
    .elsewhere fun c => { c with readings := c.readings + 5 }, .here (.refuseEarly "later")]

theorem reads_concern_last_answer_twice :
    let t := Talk.after patientEnvironment (.ofSession .sample) twiceTold
    ConnectionOperation.retryAfter.isRead = true ∧
      t.told = [⟨120 * second, some 0⟩, ⟨120 * second, some 0⟩] ∧
      ∃ r url reading, t.heard patientEnvironment = some (r, url) ∧
        r.advice (patientEnvironment.clock reading) = .ok (some ⟨120 * second, some 0⟩) := by
  intro t
  have htold : t.told = [⟨120 * second, some 0⟩, ⟨120 * second, some 0⟩] := by decide +kernel
  obtain ⟨-, htells⟩ := reads_concern_last_answer patientEnvironment (.ofSession .sample) twiceTold
    .retryAfter rfl
  refine ⟨rfl, htold, (htells _ ?_).2⟩
  show _ ∈ t.told
  rw [htold]
  exact List.mem_cons_self

end AcmeClient
