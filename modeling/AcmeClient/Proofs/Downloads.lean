import AcmeClient.Proofs.Answers
import AcmeClient.Proofs.Chains
import AcmeClient.Proofs.Locations
import Mathlib.Data.List.Induction

/-!
# Downloads are kept

A certificate has a chain and the URLs of other ones, which one answer brings in. What looks at them
downloads them first if there is no chain yet, and each attempt may fail.

* `Download.outcome` — what comes of one attempt;
* `Download.exists_isAnswered`, `Download.outcome_of_answer` — it succeeds with one answer that
  holds the chain and the links;
* `CertificateOperation.report`, `use` — what an operation gives back, and what it does with a chain
  that is there;
* `CertificateOperation.run_report_of_some`, `run_report_of_none` — it uses the chain that is
  there, or makes one attempt first;
* `Ledger.step_cases` — what an operation attempts, and what comes of it;
* `Ledger.inv_next`, `inv_after` — the certificate has what the last success brought in;
* `Ledger.downloads_are_kept` — the account of any operations on a new certificate.
-/

namespace AcmeClient

open Act X509

/-! ### One download -/

/-- What a download brings in: a chain, and the URLs of other ones. -/
abbrev Bundle := List Certificate × List String

/-- An attempt to download the chain of a certificate at a location. -/
structure Download where
  environment : Environment
  client : Client
  location : Option String

theorem Exchange.readCertificates_eq_ok {env : Environment} {c : Client} {a : Response}
    {url : Option String} {cs : List Certificate} {s : Client × Connection} :
    readCertificates.run env (c, ⟨some a, url, none⟩) = (.ok cs, s) ↔
      Certificate.chainOfPem a.content = .ok cs ∧ s = (c, ⟨some a, url, none⟩) := by
  have hrun : readCertificates.run env (c, ⟨some a, url, none⟩)
      = ((Certificate.chainOfPem a.content).mapError ofChainDefect, (c, ⟨some a, url, none⟩)) := rfl
  rw [hrun]
  cases Certificate.chainOfPem a.content with
  | error d => simp
  | ok cs' => simp [eq_comm]

namespace Download

/-- What comes of an attempt, and the client after it. -/
def outcome (d : Download) : Except Fault Bundle × Client :=
  (do
    let url ← locationOf CertificateResource.kindName d.location
    Client.connected (Holding.downloaded url) : Act Client Bundle).run d.environment d.client

/-- Whether an answer is the one to the last request of an attempt, which went to the location, and
its body and its links are what the attempt brings in. -/
structure IsAnswered (d : Download) (url : String) (a : Response) (b : Bundle) : Prop where
  location : d.location = some url
  asked : ∃ q, d.outcome.2.sent.getLast? = some q ∧ q.url = url
  reply : d.environment.server d.outcome.2.sent = .response a
  status : a.status = 200
  chain : Certificate.chainOfPem a.content = .ok b.1
  alternates : a.links url "alternate" = .ok b.2

variable {d : Download} {b : Bundle}

/-- What an attempt brings in comes from one answer. -/
theorem exists_isAnswered (h : d.outcome.1 = .ok b) : ∃ url a, d.IsAnswered url a b := by
  obtain ⟨env, c, location⟩ := d
  have hrun : (outcome ⟨env, c, location⟩) = (.ok b, (outcome ⟨env, c, location⟩).2) :=
    Prod.ext h rfl
  generalize hc' : (outcome ⟨env, c, location⟩).2 = c' at hrun
  cases location with
  | none => cases h
  | some url =>
    have hconnected : (Client.connected (Holding.downloaded url)).run env c = (.ok b, c') := hrun
    obtain ⟨connection, hdown⟩ := Client.run_connected_eq_ok.1 hconnected
    obtain ⟨status, ⟨c₁, held⟩, hfetch, hrest⟩ := (run_bind_eq_ok env).1 hdown
    obtain ⟨a, hheld, hreply, hasked⟩ := Exchange.holds_fetch hfetch
    obtain rfl : held = ⟨some a, some url, none⟩ := hheld
    obtain ⟨code, s₂, haccept, hrest⟩ := (run_bind_eq_ok env).1 hrest
    obtain ⟨hstatus, rfl⟩ := Exchange.mem_of_run_accept haccept rfl
    obtain ⟨cs, s₃, hread, hrest⟩ := (run_bind_eq_ok env).1 hrest
    obtain ⟨hchain, rfl⟩ := Exchange.readCertificates_eq_ok.1 hread
    obtain ⟨us, s₄, hlinks, hrest⟩ := (run_bind_eq_ok env).1 hrest
    rw [Exchange.run_links env c₁ rfl] at hlinks
    cases hrest
    obtain ⟨halternates, hs⟩ := Prod.mk.inj hlinks
    cases hs
    refine ⟨url, a, rfl, ?_, ?_, List.mem_singleton.1 hstatus, hchain, halternates⟩
    · rw [hc']
      exact hasked
    · rw [hc']
      exact hreply

/-- An attempt succeeds when its request is answered with a chain, and with links that can be read
if there are any. -/
theorem outcome_of_answer {env : Environment} {c : Client} {s : Client × Connection} {url : String}
    {status : Int} {a : Response}
    (hfetch : (Exchange.fetch url Exchange.chainType).run env (c, .idle) = (.ok status, s))
    (hreply : env.server s.1.sent = .response a) (hstatus : a.status = 200)
    (hchain : Certificate.chainOfPem a.content = .ok b.1)
    (halternates : a.links url "alternate" = .ok b.2) :
    (⟨env, c, some url⟩ : Download).outcome = (.ok b, s.1) := by
  obtain ⟨a', hheld, hreply', -⟩ := Exchange.holds_fetch hfetch
  obtain rfl := Reply.response.inj (hreply.symm.trans hreply')
  obtain ⟨c', held⟩ := s
  obtain rfl : held = ⟨some a, some url, none⟩ := hheld
  have haccept : (Exchange.accept [200]).run env (c', ⟨some a, some url, none⟩)
      = (.ok a.status, (c', ⟨some a, some url, none⟩)) :=
    Exchange.run_accept_of_mem (List.mem_singleton.2 hstatus)
  have hread : Exchange.readCertificates.run env (c', ⟨some a, some url, none⟩)
      = (.ok b.1, (c', ⟨some a, some url, none⟩)) :=
    Exchange.readCertificates_eq_ok.2 ⟨hchain, rfl⟩
  have hlinks : (Exchange.links "alternate").run env (c', ⟨some a, some url, none⟩)
      = (.ok b.2, (c', ⟨some a, some url, none⟩)) := by
    rw [Exchange.run_links env c' rfl, ← halternates]
    rfl
  have hdownloaded : (Holding.downloaded url).run env (c, .idle)
      = (.ok b, (c', ⟨some a, some url, none⟩)) := by
    rw [Holding.downloaded, run_bind_of_ok env hfetch, run_bind_of_ok env haccept,
      run_bind_of_ok env hread, run_bind_of_ok env hlinks]
    rfl
  exact Client.run_connected_eq_ok.2 ⟨_, hdownloaded⟩

end Download

/-! ### What a certificate does with downloads -/

namespace CertificateResource

/-- A certificate with what a download brings in. -/
def stocked (r : CertificateResource) (b : Bundle) : CertificateResource :=
  { r with chain := some b.1, alternates := b.2 }

end CertificateResource

/-- What an operation on a certificate gives back. -/
inductive CertificateReport where
  | chain (cs : List Certificate) : CertificateReport
  | leaf (c : Certificate) : CertificateReport
  | urls (us : List String) : CertificateReport
  | resources (rs : List CertificateResource) : CertificateReport
  | text (s : String) : CertificateReport
  | nothing : CertificateReport

namespace CertificateOperation

def report : CertificateOperation → Holding CertificateReport
  | .bindTo location => do
      Holding.bindTo location
      return .nothing
  | .download => do
      Holding.download
      return .nothing
  | .chain => do return .chain (← Holding.chain)
  | .leaf => do return .leaf (← Holding.leaf)
  | .alternates => do return .urls (← Holding.alternates)
  | .alternateCertificates => do return .resources (← Holding.alternateCertificates)
  | .writtenChain => do return .text (← Holding.writtenChain)
  | .revoke reason => do
      Holding.revoke reason
      return .nothing

/-- An operation is done as it is without what it gives back. -/
theorem act_eq_report (o : CertificateOperation) : o.act = (do let _ ← o.report) := by
  cases o <;> simp [act, report]

def isRead : CertificateOperation → Bool
  | .bindTo _ | .download => false
  | .chain | .leaf | .alternates | .alternateCertificates | .writtenChain | .revoke _ => true

/-- What an operation does with the chain and the links once they are there. -/
def use (b : Bundle) : CertificateOperation → Act Client CertificateReport
  | .bindTo _ | .download => return .nothing
  | .chain => return .chain b.1
  | .leaf =>
      match b.1.head? with
      | some c => return .leaf c
      | none => throw .noItem
  | .alternates => return .urls b.2
  | .alternateCertificates => do
      return .resources (← b.2.mapM fun url =>
        (liftM (CertificateResource.make (.string url)) : Act Client CertificateResource))
  | .writtenChain => return .text (Certificate.pemOfChain b.1)
  | .revoke reason =>
      match b.1.head? with
      | some c => do
          Client.revoke c reason none
          return .nothing
      | none => throw .noItem

end CertificateOperation

/-- What becomes of an operation on a certificate that starts with an attempt to download. -/
def Download.then (d : Download) (r : CertificateResource) (o : CertificateOperation) :
    Except Fault CertificateReport × (Client × CertificateResource) :=
  match d.outcome with
  | (.error e, c) => (.error e, (c, r))
  | (.ok b, c) =>
      (((o.use b).run d.environment c).1, (((o.use b).run d.environment c).2, r.stocked b))

section Then

variable {d : Download} {e : Fault} {b : Bundle} (r : CertificateResource)
  (o : CertificateOperation)

theorem Download.then_of_error (h : d.outcome.1 = .error e) :
    d.then r o = (.error e, (d.outcome.2, r)) := by
  rw [Download.then, show d.outcome = (.error e, d.outcome.2) from Prod.ext h rfl]

theorem Download.then_of_ok (h : d.outcome.1 = .ok b) :
    d.then r o = (((o.use b).run d.environment d.outcome.2).1,
      (((o.use b).run d.environment d.outcome.2).2, r.stocked b)) := by
  rw [Download.then, show d.outcome = (.ok b, d.outcome.2) from Prod.ext h rfl]

end Then

namespace Holding

variable (env : Environment) (c : Client) (r : CertificateResource)

theorem run_download : download.run env (c, r) =
    match (⟨env, c, r.location⟩ : Download).outcome with
    | (.error e, c') => (.error e, (c', r))
    | (.ok b, c') => (.ok (), (c', r.stocked b)) := by
  have hrun : download.run env (c, r) = (do
      let url ← (locationOf CertificateResource.kindName r.location : Except Fault _)
      let b ← onFirst (Client.connected (downloaded url))
      modify fun s => (s.1, s.2.stocked b) : Holding Unit).run env (c, r) := rfl
  rw [hrun, Download.outcome, run_bind, run_bind, run_lift, run_lift]
  cases locationOf CertificateResource.kindName r.location with
  | error e => rfl
  | ok url =>
    dsimp only
    rw [run_bind, run_onFirst]
    rcases (Client.connected (downloaded url)).run env c with ⟨_ | b, c'⟩
    · rfl
    · rfl

/-- Nothing is downloaded where a chain is. -/
theorem run_ensure_of_some {cs : List Certificate} (h : r.chain = some cs) :
    ensure.run env (c, r) = (.ok (), (c, r)) := by
  show (if r.chain.isNone then download else pure () : Holding Unit).run env (c, r) = _
  rw [h]
  rfl

theorem run_ensure_of_none (h : r.chain = none) :
    ensure.run env (c, r) = download.run env (c, r) := by
  show (if r.chain.isNone then download else pure () : Holding Unit).run env (c, r) = _
  rw [h]
  rfl

end Holding

namespace CertificateOperation

variable {o : CertificateOperation}

/-- What looks at the chain or the links makes sure that they are there, and uses them. -/
theorem run_report_of_ensure (ho : o.isRead = true) {env : Environment} {c c' : Client}
    {r r' : CertificateResource} {cs : List Certificate}
    (hensure : Holding.ensure.run env (c, r) = (.ok (), (c', r'))) (hchain : r'.chain = some cs) :
    o.report.run env (c, r) = (((o.use (cs, r'.alternates)).run env c').1,
      (((o.use (cs, r'.alternates)).run env c').2, r')) := by
  have hcs : Holding.chain.run env (c, r) = (.ok cs, (c', r')) := by
    rw [Holding.chain, run_bind_of_ok env hensure]
    show (Except.ok (r'.chain.getD []), (c', r')) = _
    rw [hchain]
    rfl
  have hus : Holding.alternates.run env (c, r) = (.ok r'.alternates, (c', r')) := by
    rw [Holding.alternates, run_bind_of_ok env hensure]
    rfl
  have hleaf : Holding.leaf.run env (c, r)
      = (match cs.head? with | some first => .ok first | none => .error .noItem, (c', r')) := by
    rw [Holding.leaf, run_bind_of_ok env hcs]
    cases cs.head? <;> rfl
  cases o with
  | bindTo | download => cases ho
  | chain =>
    rw [report, run_bind_of_ok env hcs]
    rfl
  | alternates =>
    rw [report, run_bind_of_ok env hus]
    rfl
  | writtenChain =>
    rw [report, Holding.writtenChain, bind_assoc, run_bind_of_ok env hcs]
    rfl
  | leaf =>
    rw [report, run_bind, hleaf, use]
    cases cs.head? <;> rfl
  | alternateCertificates =>
    rw [report, Holding.alternateCertificates, bind_assoc, run_bind_of_ok env hus, use, run_bind,
      Exchange.run_mapM_lift, run_bind, Exchange.run_mapM_lift]
    cases r'.alternates.mapM fun url => CertificateResource.make (.string url) <;> rfl
  | revoke reason =>
    rw [report, Holding.revoke, use, bind_assoc, run_bind, hleaf]
    cases cs.head? with
    | none => rfl
    | some first =>
      dsimp only
      rw [run_bind, run_onFirst, run_bind]
      rcases (Client.revoke first reason none).run env c' with ⟨_ | _, c''⟩ <;> rfl

/-- What looks at the chain or the links fails when they are not there. -/
theorem run_report_of_ensure_error (ho : o.isRead = true) {env : Environment}
    {s s' : Client × CertificateResource} {e : Fault}
    (hensure : Holding.ensure.run env s = (.error e, s')) :
    o.report.run env s = (.error e, s') := by
  have hchain : Holding.chain.run env s = (.error e, s') := run_bind_of_error env hensure
  have halternates : Holding.alternates.run env s = (.error e, s') := run_bind_of_error env hensure
  have hleaf : Holding.leaf.run env s = (.error e, s') := run_bind_of_error env hchain
  cases o with
  | bindTo | download => cases ho
  | chain => exact run_bind_of_error env hchain
  | leaf => exact run_bind_of_error env hleaf
  | alternates => exact run_bind_of_error env halternates
  | alternateCertificates => exact run_bind_of_error env (run_bind_of_error env halternates)
  | writtenChain => exact run_bind_of_error env (run_bind_of_error env hchain)
  | revoke reason => exact run_bind_of_error env (run_bind_of_error env hleaf)

variable (env : Environment) (c : Client) {r : CertificateResource}

/-- Where a chain is, it is used. -/
theorem run_report_of_some (ho : o.isRead = true) {cs : List Certificate} (h : r.chain = some cs) :
    o.report.run env (c, r) = (((o.use (cs, r.alternates)).run env c).1,
      (((o.use (cs, r.alternates)).run env c).2, r)) :=
  run_report_of_ensure ho (Holding.run_ensure_of_some env c r h) h

/-- Where no chain is, one attempt is made to download it. -/
theorem run_report_of_none (ho : o.isRead = true) (h : r.chain = none) :
    o.report.run env (c, r) = (⟨env, c, r.location⟩ : Download).then r o := by
  have hensure := Holding.run_ensure_of_none env c r h
  rw [Holding.run_download] at hensure
  rw [Download.then]
  rcases hd : (⟨env, c, r.location⟩ : Download).outcome with ⟨e | b, c'⟩
  · rw [hd] at hensure
    exact run_report_of_ensure_error ho hensure
  · rw [hd] at hensure
    exact run_report_of_ensure ho hensure rfl

theorem run_report_download (r : CertificateResource) :
    report .download env (c, r) = (⟨env, c, r.location⟩ : Download).then r .download := by
  rw [report, run_bind, Holding.run_download, Download.then]
  rcases (⟨env, c, r.location⟩ : Download).outcome with ⟨_ | b, c'⟩ <;> rfl

/-- A certificate that takes a location keeps its chain and its links. -/
theorem run_report_bindTo (r : CertificateResource) (location : Json) :
    ∃ result u, (report (.bindTo location)).run env (c, r)
      = (result, (c, { r with location := u })) := by
  cases hbound : bound CertificateResource.kindName r.location location with
  | error e =>
    refine ⟨.error e, r.location, ?_⟩
    simp [report, Holding.bindTo, Holding.resource, run_bind, CertificateResource.bindTo, hbound]
  | ok u =>
    refine ⟨.ok .nothing, some u, ?_⟩
    simp [report, Holding.bindTo, Holding.resource, run_bind, CertificateResource.bindTo, hbound,
      -bind_pure_comp]

/-- What only reads leaves the client as it is. -/
theorem run_use_of_quiet (h : ∀ reason, o ≠ .revoke reason) (b : Bundle) :
    ((o.use b).run env c).2 = c := by
  cases o with
  | bindTo | download | chain | alternates | writtenChain => rfl
  | leaf =>
    rw [use]
    split <;> rfl
  | alternateCertificates =>
    rw [use, run_bind, Exchange.run_mapM_lift]
    cases b.2.mapM fun url => CertificateResource.make (.string url) <;> rfl
  | revoke reason => exact absurd rfl (h reason)

end CertificateOperation

/-! ### Accounts of downloads -/

/-- What the last attempt that succeeded brought in. -/
def kept (ds : List Download) : Option Bundle :=
  (ds.filterMap fun d => d.outcome.1.toOption).getLast?

section Kept

variable {ds : List Download} {d : Download} {b : Bundle}

theorem kept_concat_of_ok (h : d.outcome.1 = .ok b) : kept (ds ++ [d]) = some b := by
  simp [kept, h, Except.toOption]

theorem kept_concat_of_error {e : Fault} (h : d.outcome.1 = .error e) :
    kept (ds ++ [d]) = kept ds := by
  simp [kept, h, Except.toOption]

/-- What is kept was brought in, and no later attempt succeeded. -/
theorem exists_of_kept (h : kept ds = some b) : ∃ before d after, ds = before ++ d :: after ∧
    d.outcome.1 = .ok b ∧ ∀ d' ∈ after, ∃ e, d'.outcome.1 = .error e := by
  induction ds using List.reverseRecOn with
  | nil => cases h
  | append_singleton ds d ih =>
    cases hd : d.outcome.1 with
    | ok b' =>
      rw [kept_concat_of_ok hd] at h
      obtain rfl := Option.some.inj h
      exact ⟨ds, d, [], rfl, hd, fun _ hmem => absurd hmem List.not_mem_nil⟩
    | error e =>
      rw [kept_concat_of_error hd] at h
      obtain ⟨before, d', after, rfl, hd', hafter⟩ := ih h
      refine ⟨before, d', after ++ [d], by simp, hd', ?_⟩
      rintro d'' hd''
      rcases List.mem_append.1 hd'' with hd'' | hd''
      · exact hafter d'' hd''
      · exact ⟨e, by rw [List.mem_singleton.1 hd'', hd]⟩

end Kept

/-- Whether a certificate has what was brought in, or nothing. -/
def CertificateResource.Keeps (r : CertificateResource) : Option Bundle → Prop
  | some b => r.chain = some b.1 ∧ r.alternates = b.2
  | none => r.chain = none ∧ r.alternates = []

theorem CertificateResource.Keeps.of_eq {r r' : CertificateResource} {b : Option Bundle}
    (h : r.Keeps b) (hchain : r'.chain = r.chain) (halternates : r'.alternates = r.alternates) :
    r'.Keeps b := by
  cases b <;> exact ⟨hchain.trans h.1, halternates.trans h.2⟩

/-- A certificate, and the attempts to download that were made for it. -/
structure Ledger where
  resource : CertificateResource
  downloads : List Download

namespace Ledger

/-- A certificate for which nothing was downloaded. -/
def start (location : Option String) : Ledger :=
  ⟨⟨location, none, []⟩, []⟩

/-- The attempt to download for the certificate of which an operation is one. -/
def attempt (l : Ledger) (o : Occasion CertificateOperation) : Download :=
  ⟨o.environment, o.client, l.resource.location⟩

/-- The attempts that an operation makes: one to download, one to look at a chain unless an attempt
succeeded before, and none to take a location. -/
def attempts (l : Ledger) (o : Occasion CertificateOperation) : List Download :=
  match o.operation with
  | .bindTo _ => []
  | .download => [l.attempt o]
  | .chain | .leaf | .alternates | .alternateCertificates | .writtenChain | .revoke _ =>
      if (kept l.downloads).isSome then [] else [l.attempt o]

def outcome (l : Ledger) (o : Occasion CertificateOperation) :
    Except Fault CertificateReport × (Client × CertificateResource) :=
  o.operation.report.run o.environment (o.client, l.resource)

/-- The certificate and the attempts after an operation. -/
def next (l : Ledger) (o : Occasion CertificateOperation) : Ledger :=
  ⟨(l.outcome o).2.2, l.downloads ++ l.attempts o⟩

/-- The certificate and the attempts after some operations, one after the other. -/
def after (l : Ledger) (os : List (Occasion CertificateOperation)) : Ledger :=
  os.foldl next l

/-- Whether a certificate has what the last attempt brought in that succeeded. -/
def Inv (l : Ledger) : Prop :=
  l.resource.Keeps (kept l.downloads)

variable {l : Ledger} {o : Occasion CertificateOperation}

theorem resource_next (l : Ledger) (o : Occasion CertificateOperation) :
    (l.next o).resource = l.resource.step o := by
  rw [next, outcome, CertificateResource.step, CertificateOperation.act_eq_report, run_discard]

theorem resource_after (l : Ledger) (os : List (Occasion CertificateOperation)) :
    (l.after os).resource = os.foldl CertificateResource.step l.resource := by
  induction os generalizing l with
  | nil => rfl
  | cons o os ih =>
    rw [List.foldl_cons, ← resource_next, ← ih]
    rfl

theorem attempts_of_isRead (ho : o.operation.isRead = true) :
    l.attempts o = if (kept l.downloads).isSome then [] else [l.attempt o] := by
  obtain ⟨env, c, operation⟩ := o
  cases operation with
  | bindTo | download => cases ho
  | chain | leaf | alternates | alternateCertificates | writtenChain | revoke => rfl

/-- What looks at the chain or the links uses what is kept, and nothing else happens. -/
theorem outcome_of_some (h : l.Inv) (ho : o.operation.isRead = true) {b : Bundle}
    (hb : kept l.downloads = some b) :
    l.outcome o = (((o.operation.use b).run o.environment o.client).1,
      (((o.operation.use b).run o.environment o.client).2, l.resource)) := by
  rw [Inv, hb] at h
  obtain ⟨cs, us⟩ := b
  obtain ⟨hchain, rfl⟩ : l.resource.chain = some cs ∧ l.resource.alternates = us := h
  exact CertificateOperation.run_report_of_some _ _ ho hchain

/-- What looks at the chain or the links downloads first where nothing is kept. -/
theorem outcome_of_none (h : l.Inv) (ho : o.operation.isRead = true)
    (hb : kept l.downloads = none) :
    l.outcome o = (l.attempt o).then l.resource o.operation := by
  rw [Inv, hb] at h
  exact CertificateOperation.run_report_of_none _ _ ho h.1

/-- An operation makes one attempt and goes on if it succeeds, uses what is kept, or takes a
location. -/
theorem step_cases (h : l.Inv) (o : Occasion CertificateOperation) :
    (l.attempts o = [l.attempt o] ∧
      l.outcome o = (l.attempt o).then l.resource o.operation) ∨
    (l.attempts o = [] ∧ (l.outcome o).2.2.chain = l.resource.chain ∧
      (l.outcome o).2.2.alternates = l.resource.alternates) := by
  cases ho : o.operation.isRead with
  | true =>
    cases hb : kept l.downloads with
    | some b =>
      refine .inr ⟨by rw [attempts_of_isRead ho, hb]; rfl, ?_⟩
      rw [outcome_of_some h ho hb]
      exact ⟨rfl, rfl⟩
    | none => exact .inl ⟨by rw [attempts_of_isRead ho, hb]; rfl, outcome_of_none h ho hb⟩
  | false =>
    obtain ⟨env, c, operation⟩ := o
    cases operation with
    | bindTo location =>
      obtain ⟨result, u, hrun⟩ := CertificateOperation.run_report_bindTo env c l.resource location
      have houtcome : l.outcome ⟨env, c, .bindTo location⟩ = _ := hrun
      refine .inr ⟨rfl, ?_⟩
      rw [houtcome]
      exact ⟨rfl, rfl⟩
    | download => exact .inl ⟨rfl, CertificateOperation.run_report_download env c l.resource⟩
    | chain | leaf | alternates | alternateCertificates | writtenChain | revoke => cases ho

theorem next_of_error (hattempts : l.attempts o = [l.attempt o])
    (houtcome : l.outcome o = (l.attempt o).then l.resource o.operation) {e : Fault}
    (he : (l.attempt o).outcome.1 = .error e) :
    l.next o = ⟨l.resource, l.downloads ++ [l.attempt o]⟩ := by
  rw [next, hattempts, houtcome, Download.then_of_error _ _ he]

theorem next_of_ok (hattempts : l.attempts o = [l.attempt o])
    (houtcome : l.outcome o = (l.attempt o).then l.resource o.operation) {b : Bundle}
    (hb : (l.attempt o).outcome.1 = .ok b) :
    l.next o = ⟨l.resource.stocked b, l.downloads ++ [l.attempt o]⟩ := by
  rw [next, hattempts, houtcome, Download.then_of_ok _ _ hb]

/-- What is kept and what the certificate has change together. -/
theorem inv_next (h : l.Inv) (o : Occasion CertificateOperation) : (l.next o).Inv := by
  obtain ⟨hattempts, houtcome⟩ | ⟨hattempts, hchain, halternates⟩ := step_cases h o
  · cases hd : (l.attempt o).outcome.1 with
    | error e =>
      rw [next_of_error hattempts houtcome hd, Inv, kept_concat_of_error hd]
      exact h
    | ok b =>
      rw [next_of_ok hattempts houtcome hd, Inv, kept_concat_of_ok hd]
      exact ⟨rfl, rfl⟩
  · rw [next, hattempts, List.append_nil, Inv]
    exact CertificateResource.Keeps.of_eq h hchain halternates

theorem inv_start (location : Option String) : (start location).Inv :=
  ⟨rfl, rfl⟩

theorem inv_after (location : Option String) (os : List (Occasion CertificateOperation)) :
    ((start location).after os).Inv :=
  List.foldlRecOn os next (inv_start location) fun _ h o _ => inv_next h o

/-- What is kept after some attempts, and what the next operation does. The certificate has what one
answer brought in, to the last attempt that succeeded. An attempt that fails fails the operation and
leaves the certificate as it is; one that succeeds replaces chain and links. What looks at them
makes one attempt where nothing is kept; otherwise it makes none, and sends nothing unless it
revokes the leaf. -/
structure IsKept (l : Ledger) : Prop where
  keeps : l.resource.Keeps (kept l.downloads)
  answered : ∀ b, kept l.downloads = some b → b.1 ≠ [] ∧
    ∃ before d after url a, l.downloads = before ++ d :: after ∧ d.IsAnswered url a b ∧
      ∀ d' ∈ after, ∃ e, d'.outcome.1 = .error e
  fails : ∀ o d e, d ∈ l.attempts o → d.outcome.1 = .error e →
    l.outcome o = (.error e, (d.outcome.2, l.resource))
  succeeds : ∀ o d b, d ∈ l.attempts o → d.outcome.1 = .ok b →
    l.outcome o = (((o.operation.use b).run o.environment d.outcome.2).1,
      (((o.operation.use b).run o.environment d.outcome.2).2, l.resource.stocked b))
  downloads : ∀ o, o.operation = .download → l.attempts o = [l.attempt o]
  before : ∀ o, o.operation.isRead = true → kept l.downloads = none →
    l.attempts o = [l.attempt o]
  after : ∀ o b, o.operation.isRead = true → kept l.downloads = some b → l.attempts o = [] ∧
    l.outcome o = (((o.operation.use b).run o.environment o.client).1,
      (((o.operation.use b).run o.environment o.client).2, l.resource))
  quiet : ∀ (o : Occasion CertificateOperation) b, (∀ reason, o.operation ≠ .revoke reason) →
    ((o.operation.use b).run o.environment o.client).2 = o.client

theorem mem_attempts (h : l.Inv) {d : Download} (hd : d ∈ l.attempts o) :
    d = l.attempt o ∧ l.outcome o = d.then l.resource o.operation := by
  obtain ⟨hattempts, houtcome⟩ | ⟨hattempts, -⟩ := step_cases h o
  · rw [hattempts] at hd
    obtain rfl := List.mem_singleton.1 hd
    exact ⟨rfl, houtcome⟩
  · rw [hattempts] at hd
    cases hd

theorem Inv.isKept (h : l.Inv) : l.IsKept where
  keeps := h
  answered b hb := by
    obtain ⟨before, d, after, hds, hd, hafter⟩ := exists_of_kept hb
    obtain ⟨url, a, ha⟩ := Download.exists_isAnswered hd
    exact ⟨Certificate.ne_nil_of_chainOfPem ha.chain, before, d, after, url, a, hds, ha, hafter⟩
  fails o d e hd he := by
    rw [(mem_attempts h hd).2, Download.then_of_error _ _ he]
  succeeds o d b hd hb := by
    obtain ⟨rfl, houtcome⟩ := mem_attempts h hd
    rw [houtcome, Download.then_of_ok _ _ hb]
    rfl
  downloads o ho := by
    rw [attempts, ho]
  before o ho hb := by
    rw [attempts_of_isRead ho, hb]
    rfl
  after o b ho hb := by
    rw [attempts_of_isRead ho, hb]
    exact ⟨rfl, outcome_of_some h ho hb⟩
  quiet o b ho := CertificateOperation.run_use_of_quiet _ _ ho b

/-- **Downloads are kept.** Whatever is done with a certificate, whatever the clients and servers
are like and whichever attempts fail, the chain and the links of a certificate are what the last
download brought in that succeeded. -/
theorem downloads_are_kept (location : Option String) (os : List (Occasion CertificateOperation)) :
    ((start location).after os).resource
        = os.foldl CertificateResource.step ⟨location, none, []⟩ ∧
      ((start location).after os).IsKept :=
  ⟨resource_after (start location) os, (inv_after location os).isKept⟩

/-- A read after one that fails makes an attempt again. -/
theorem downloads_after_pair {location : Option String} {o₁ o₂ : Occasion CertificateOperation}
    (h₁ : o₁.operation.isRead = true) (h₂ : o₂.operation.isRead = true) {e : Fault}
    (he : ((start location).attempt o₁).outcome.1 = .error e) :
    ((start location).after [o₁, o₂]).downloads
      = [(start location).attempt o₁] ++ [(start location).attempt o₂] := by
  have hattempts : (start location).attempts o₁ = [(start location).attempt o₁] := by
    rw [attempts_of_isRead h₁]
    rfl
  have hfirst : (start location).next o₁
      = ⟨(start location).resource, [] ++ [(start location).attempt o₁]⟩ :=
    next_of_error hattempts (outcome_of_none (inv_start location) h₁ rfl) he
  have hnone : kept ([] ++ [(start location).attempt o₁]) = none := kept_concat_of_error he
  rw [after, List.foldl_cons, List.foldl_cons, List.foldl_nil, hfirst, next, attempts_of_isRead h₂,
    hnone]
  rfl

def refusingEnvironment : Environment :=
  ⟨fun _ => .response ⟨503, none, ⟨[]⟩, []⟩, fun _ => ⟨0, some 0⟩⟩

/-- An answer with a chain of one certificate and a link to another chain. -/
def issuedAnswer : Response :=
  ⟨200, none, ⟨[("Link", "</alt/1>;rel=\"alternate\"")]⟩,
    Text.Utf8.encode (Certificate.pemOfChain [Certificate.sample])⟩

/-- A server that gives one answer to everything. -/
def issuingEnvironment : Environment :=
  ⟨fun _ => .response issuedAnswer, fun _ => ⟨0, some 0⟩⟩

/-- A read that fails and one that downloads, after which the chain is there without a server. -/
theorem downloads_are_kept_after_failure :
    let c := Client.ofSession { Session.sample with kid := none }
    let l := (start (some "https://acme.test/cert/1")).after
      [⟨refusingEnvironment, c, .chain⟩, ⟨issuingEnvironment, c, .alternates⟩]
    l.IsKept ∧ l.downloads.length = 2 ∧
      kept l.downloads = some ([Certificate.sample], ["https://acme.test/alt/1"]) ∧
      l.outcome ⟨refusingEnvironment, c, .chain⟩
        = (.ok (.chain [Certificate.sample]), (c, l.resource)) := by
  intro c l
  let url := "https://acme.test/cert/1"
  let refused : Download := ⟨refusingEnvironment, c, some url⟩
  let issued : Download := ⟨issuingEnvironment, c, some url⟩
  have hrefused : ∃ e, refused.outcome.1 = .error e := ⟨_, rfl⟩
  have hissued : issued.outcome.1 = .ok ([Certificate.sample], ["https://acme.test/alt/1"]) := by
    have hfetch : ((Exchange.fetch url Exchange.chainType).run issuingEnvironment (c, .idle)).1
        = .ok 200 := eq_ok_of_toOption (by decide +kernel)
    have hchain : Certificate.chainOfPem issuedAnswer.content = .ok [Certificate.sample] :=
      Certificate.chainOfPem_pemOfChain (List.cons_ne_nil _ _)
    have hlinks : issuedAnswer.links url "alternate" = .ok ["https://acme.test/alt/1"] :=
      eq_ok_of_toOption (by decide +kernel)
    exact congrArg Prod.fst
      (Download.outcome_of_answer (Prod.ext hfetch rfl) rfl rfl hchain hlinks)
  obtain ⟨e, he⟩ := hrefused
  have hdownloads : l.downloads = [refused] ++ [issued] := downloads_after_pair rfl rfl he
  have hkept : kept l.downloads = some ([Certificate.sample], ["https://acme.test/alt/1"]) := by
    rw [hdownloads]
    exact kept_concat_of_ok hissued
  have hlength : l.downloads.length = 2 := by
    rw [hdownloads]
    rfl
  obtain ⟨-, h⟩ := downloads_are_kept (some url)
    [⟨refusingEnvironment, c, .chain⟩, ⟨issuingEnvironment, c, .alternates⟩]
  exact ⟨h, hlength, hkept, (h.after ⟨refusingEnvironment, c, .chain⟩ _ rfl hkept).2⟩

end Ledger

end AcmeClient
