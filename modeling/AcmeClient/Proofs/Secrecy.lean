import AcmeClient.Proofs.AlikeOperations

/-!
# Private keys stay secret

What is private in the keys of a session, in new keys and in keys of certificates gets into no
request, except through signatures. Two runs with keys that differ in their private parts only send
the same requests but for the signatures:

* `Environment.Repeats` — surroundings that show two runs the same;
* `Client.requests_hide_private_keys` — what such runs send.
-/

namespace AcmeClient

open Act

/-- Whether surroundings show a run that sent some requests what others show a run that sent others:
the same clock, and the same replies one after the other. -/
structure Environment.Repeats (env env' : Environment) (sent sent' : List Request) : Prop where
  clock : env.clock = env'.clock
  reply : ∀ n, 0 < n → n ≤ sent.length → n ≤ sent'.length →
    env.server (sent.take n) = env'.server (sent'.take n)

/-- A server that looks at the number of the requests only shows all runs the same. -/
theorem Environment.repeats_of_counting {server : Server}
    (h : ∀ {sent sent'}, sent.length = sent'.length → server sent = server sent')
    (clock : Nat → Calendar.Instant) (sent sent' : List Request) :
    Environment.Repeats ⟨server, clock⟩ ⟨server, clock⟩ sent sent' := by
  refine ⟨rfl, fun n _ hn hn' => ?_⟩
  show server (sent.take n) = server (sent'.take n)
  refine h ?_
  rw [List.length_take_of_le hn, List.length_take_of_le hn']

namespace Client

variable {env env' : Environment} {c c' t t' : Client}

/-- On the way to the end of two runs that are shown the same, clients that sent as many requests
are shown the same. -/
theorem meets_of_repeats (h : env.Repeats env' c.sent c'.sent)
    (hlength : t.sent.length = t'.sent.length) (ht : t.Extends c) (ht' : t'.Extends c') :
    Meets env env' t t' where
  clock := h.clock
  reply hne := by
    have hsent : t.sent = c.sent.take t.sent.length := List.prefix_iff_eq_take.1 ht
    have hsent' : t'.sent = c'.sent.take t.sent.length := by
      rw [hlength]
      exact List.prefix_iff_eq_take.1 ht'
    have hle' : t.sent.length ≤ c'.sent.length := by
      rw [hlength]
      exact ht'.length_le
    rw [hsent, hsent']
    exact h.reply _ (List.length_pos_iff.2 hne) ht.length_le hle'

/-- **Requests hide private keys.** Two sessions are the same but for the private part of the key,
and do the same operations, but for the private parts of the keys that are given. If both are shown
the same, they send the same requests, but for the signatures. -/
theorem requests_hide_private_keys (s : Session) {key' : Option Key}
    (hkey : Option.Rel Key.SamePublic s.key key') {os os' : List Operation}
    (hos : List.Forall₂ (Operation.Alike Key.SamePublic) os os')
    (hrepeats : env.Repeats env' ((ofSession s).after env os).sent
      ((ofSession { s with key := key' }).after env' os').sent) :
    List.Forall₂ (Request.Alike Key.SamePublic) ((ofSession s).after env os).sent
      ((ofSession { s with key := key' }).after env' os').sent := by
  have hstart : (ofSession s).Alike Key.SamePublic none (ofSession { s with key := key' }) :=
    ⟨⟨hkey, rfl, nofun, fun _ => rfl⟩, .nil, rfl⟩
  have hend := alike_after Key.likeness_samePublic hos hstart fun t t' ht hextends hextends' =>
    meets_of_repeats hrepeats ht.sent.length_eq hextends hextends'
  exact hend.sent

/-- The sample key with another private exponent. -/
def strangeKey : Key :=
  match Key.sample with
  | .rsa p s => .rsa p (s.map fun s => { s with exponent := 5 })
  | k => k

/-- A plain request, and two that are signed, one of them with a key that is given. -/
def keyedRequests (key : Key) : List Operation :=
  [.onConnection .idle (.sendPlain "https://acme.test/a" "application/json"),
    .onConnection .idle (.sendSigned "https://acme.test/b" .nothing .session "application/json"),
    .onConnection .idle
      (.sendSigned "https://acme.test/c" .nothing ⟨some key, false⟩ "application/json")]

/-- So it is for two requests that are signed with different private exponents. -/
theorem requests_hide_private_keys_strange :
    let s := Session.sample
    let env := countingEnvironment
    let sent := ((ofSession s).after env (keyedRequests .sample)).sent
    let sent' := ((ofSession { s with key := some strangeKey }).after env
      (keyedRequests strangeKey)).sent
    s.key ≠ some strangeKey ∧ Option.Rel Key.SamePublic s.key (some strangeKey) ∧
      List.Forall₂ (Operation.Alike Key.SamePublic) (keyedRequests .sample)
        (keyedRequests strangeKey) ∧
      env.Repeats env sent sent' ∧ List.Forall₂ (Request.Alike Key.SamePublic) sent sent' ∧
      sent.map Request.method = [.get, .post, .post] := by
  intro s env sent sent'
  have hkey : Key.sample.SamePublic strangeKey := ⟨rfl, rfl⟩
  have hos : List.Forall₂ (Operation.Alike Key.SamePublic) (keyedRequests .sample)
      (keyedRequests strangeKey) :=
    .cons (.same _) (.cons (.same _) (.cons (.sendSigned (.some hkey) _ _ _ _ _) .nil))
  have hrepeats : env.Repeats env sent sent' := by
    refine Environment.repeats_of_counting (fun h => ?_) _ _ _
    rw [countingServer, countingServer, h]
  refine ⟨?_, .some hkey, hos, hrepeats, ?_, ?_⟩
  · decide +kernel
  · exact requests_hide_private_keys s (.some hkey) hos hrepeats
  · decide +kernel

end Client

end AcmeClient
