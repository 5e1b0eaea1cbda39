import AcmeClient.Proofs.AbsoluteUrls
import AcmeClient.Resource.Challenge
import Mathlib.Data.Bool.AllAny

/-!
# Where a web server shows a token

The URL at which a host proves an authorization ends with the token of the challenge. A good token
has no slash, so it never leaves more than one segment behind the directory; but a URL ends its path
at a question mark or a number sign, and leaves out tabs and line ends:

* `Url.IsHost` — a host name that leaves a URL as it is written;
* `Url.shown` — the parts of the URL for a token;
* `Url.split_shown` — taking the URL apart gives these parts;
* `Url.Parts.ShowsToken` — the path ends with the token as one segment, and nothing follows it;
* `Resource.uris_show_tokens` — which good tokens are shown.
-/

namespace AcmeClient

open Text

namespace Url

/-- Whether a text is a host name: no blank, no control, no delimiter of URLs, and no character that
turns into one. -/
structure IsHost (host : String) : Prop where
  nonempty : host ≠ ""
  plain : ∀ c ∈ host.toList, 0x20 < c.toNat ∧ isHarmless c = true ∧ c ∉ ":/?#@".toList

/-- The characters that a URL leaves out wherever they stand. -/
def ignored : List Char := ['\t', '\r', '\n']

def tokenDirectory : List Char := "/.well-known/acme-challenge/".toList

/-- The parts of the URL at which a host shows a token. -/
def shown (host token : String) : Parts :=
  let (front, fragment) := cut '#' (token.toList.filter (· ∉ ignored))
  let (segment, query) := cut '?' front
  ⟨"http".toList, host.toList, tokenDirectory ++ segment, query.getD [], fragment.getD []⟩

/-- Whether a path is that of the directory with a token behind it as one segment that names
something in it, and nothing follows the path. -/
structure Parts.ShowsToken (parts : Parts) (token : String) : Prop where
  path : parts.path = tokenDirectory ++ token.toList
  segment : token ≠ "" ∧ token ≠ "." ∧ token ≠ ".." ∧ '/' ∉ token.toList
  query : parts.query = []
  fragment : parts.fragment = []

variable {host token : String}

theorem filter_ignored_host (h : IsHost host) :
    host.toList.filter (· ∉ ignored) = host.toList := by
  refine List.filter_eq_self.2 fun c hc => decide_eq_true fun hmem => ?_
  have hall : ∀ d ∈ ignored, d.toNat ≤ 0x20 := by simp [ignored]
  exact absurd (h.plain c hc).1 (Nat.not_lt.2 (hall c hmem))

/-- Nothing of the URL is left out but what the token has to be left out. -/
theorem cleaned_shown (h : IsHost host) :
    cleaned ("http".toList
        ++ ':' :: '/' :: '/' :: (host.toList ++ (tokenDirectory ++ token.toList)))
      = "http".toList ++ ':' :: '/' :: '/' :: (host.toList
        ++ (tokenDirectory ++ token.toList.filter (· ∉ ignored))) := by
  have hignored : (fun c : Char => decide (c ≠ '\t' ∧ c ≠ '\r' ∧ c ≠ '\n'))
      = fun c => decide (c ∉ ignored) := by
    funext c
    simp [ignored]
  have hdirectory : tokenDirectory.filter (· ∉ ignored) = tokenDirectory := by decide
  have hmarks : ∀ cs, ("http".toList ++ ':' :: '/' :: '/' :: cs).filter (· ∉ ignored)
      = "http".toList ++ ':' :: '/' :: '/' :: cs.filter (· ∉ ignored) := fun _ => rfl
  have hfront : ∀ cs : List Char, ("http".toList ++ cs).dropWhile (fun c => c.toNat ≤ 0x20)
      = "http".toList ++ cs := fun _ => rfl
  rw [cleaned, hfront, hignored, hmarks, List.filter_append, List.filter_append,
    filter_ignored_host h, hdirectory]

/-- The authority of the URL is the host. -/
theorem cutAuthority_shown (h : IsHost host) (rest : List Char) :
    cutAuthority ('/' :: '/' :: (host.toList ++ (tokenDirectory ++ rest)))
      = (host.toList, tokenDirectory ++ rest) := by
  have hends : ∀ c ∈ host.toList, (!endsAuthority c) = true := by
    intro c hc
    have hdelimiters : ∀ d, endsAuthority d = true → d ∈ ":/?#@".toList := by
      intro d hd
      simp only [endsAuthority, Bool.or_eq_true, decide_eq_true_eq] at hd
      rcases hd with (rfl | rfl) | rfl <;> decide
    rw [Bool.not_eq_true', ← Bool.not_eq_true]
    exact fun hd => (h.plain c hc).2.2 (hdelimiters c hd)
  have hdirectory : tokenDirectory = '/' :: ".well-known/acme-challenge/".toList := rfl
  rw [cutAuthority, List.takeWhile_append_of_pos hends, List.dropWhile_append_of_pos hends,
    hdirectory, List.cons_append, List.takeWhile_cons_of_neg (by decide),
    List.dropWhile_cons_of_neg (by decide), List.append_nil]

/-- Taking the URL for a token apart. -/
theorem split_shown (h : IsHost host) :
    split ("http://" ++ host ++ ("/.well-known/acme-challenge/" ++ token))
      = .ok (shown host token) := by
  have hurl : ("http://" ++ host ++ ("/.well-known/acme-challenge/" ++ token)).toList
      = "http".toList
        ++ ':' :: '/' :: '/' :: (host.toList ++ (tokenDirectory ++ token.toList)) := by
    rw [String.toList_append, String.toList_append, String.toList_append, List.append_assoc]
    rfl
  have hscheme : ∀ rest, cutScheme ("http".toList ++ ':' :: rest) = some ("http".toList, rest) := by
    intro rest
    rw [cutScheme, cut_append (by decide)]
    rfl
  have hsound : authorityDefect? host.toList = none :=
    authorityDefect?_of_harmless fun c hc => (h.plain c hc).2.1
  have hfragment : '#' ∉ tokenDirectory := by decide
  have hquery : '?' ∉ tokenDirectory := by decide
  rw [split, hurl, splitWith, cleaned_shown h, hscheme]
  dsimp only [Option.getD_some]
  rw [cutAuthority_shown h]
  dsimp only
  rw [hsound, cut_append_of_notMem hfragment]
  dsimp only
  rw [cut_append_of_notMem hquery]
  rfl

/-- The segment that is shown for a token. -/
theorem path_shown (host token : String) : (shown host token).path
    = tokenDirectory ++ (cut '?' (cut '#' (token.toList.filter (· ∉ ignored))).1).1 := rfl

/-- The path has one segment behind the directory if there is no slash in the token. -/
theorem pieces_path_shown (host : String) (h : '/' ∉ token.toList) :
    pieces '/' (shown host token).path = [[], ".well-known".toList, "acme-challenge".toList,
      (cut '?' (cut '#' (token.toList.filter (· ∉ ignored))).1).1] := by
  have hsegment : '/' ∉ (cut '?' (cut '#' (token.toList.filter (· ∉ ignored))).1).1 := fun hmem =>
    h (List.mem_filter.1 (mem_of_mem_cut (mem_of_mem_cut hmem))).1
  have hdirectory : ∀ segment, tokenDirectory ++ segment
      = [] ++ '/' :: (".well-known".toList ++ '/' :: ("acme-challenge".toList ++ '/' :: segment)) :=
    fun _ => rfl
  rw [path_shown, hdirectory, pieces_append_cons, pieces_append_cons, pieces_append_cons,
    pieces_of_notMem hsegment]
  rfl

/-- A token without delimiters and without characters that are left out is shown as it is. -/
theorem shown_of_plain (host : String) (h : ∀ c ∈ token.toList, c ∉ '?' :: '#' :: ignored) :
    shown host token = ⟨"http".toList, host.toList, tokenDirectory ++ token.toList, [], []⟩ := by
  have hfilter : token.toList.filter (· ∉ ignored) = token.toList :=
    List.filter_eq_self.2 fun c hc => decide_eq_true fun hmem =>
      h c hc (List.mem_cons_of_mem _ (List.mem_cons_of_mem _ hmem))
  have hfragment : '#' ∉ token.toList := fun hmem => h '#' hmem (by decide)
  have hquery : '?' ∉ token.toList := fun hmem => h '?' hmem (by decide)
  rw [shown, hfilter, cut_of_notMem hfragment]
  dsimp only
  rw [cut_of_notMem hquery]
  rfl

/-- Exactly the tokens without delimiters, and without characters that are left out, are shown, if
they are no name of a directory. -/
theorem showsToken_iff (host : String) (hslash : '/' ∉ token.toList) (hparent : token ≠ "..") :
    (shown host token).ShowsToken token ↔
      token ≠ "" ∧ token ≠ "." ∧ ∀ c ∈ token.toList, c ∉ '?' :: '#' :: ignored := by
  constructor
  · intro h
    have hsegment : (cut '?' (cut '#' (token.toList.filter (· ∉ ignored))).1).1 = token.toList :=
      List.append_cancel_left ((path_shown host token).symm.trans h.path)
    refine ⟨h.segment.1, h.segment.2.1, fun c hc => ?_⟩
    rw [← hsegment] at hc
    have hquery : c ≠ '?' := fun heq => notMem_cut '?' _ (heq ▸ hc)
    have hfragment : c ≠ '#' := fun heq => notMem_cut '#' _ (heq ▸ mem_of_mem_cut hc)
    have hkept : c ∉ ignored :=
      of_decide_eq_true (List.mem_filter.1 (mem_of_mem_cut (mem_of_mem_cut hc))).2
    simp [hquery, hfragment, hkept]
  · rintro ⟨hne, hdot, hplain⟩
    rw [shown_of_plain host hplain]
    exact ⟨rfl, ⟨hne, hdot, hparent, hslash⟩, rfl, rfl⟩

end Url

/-- A good token has no two points in a row and no slash. -/
theorem Resource.token_of_hasGoodToken {r : Resource} (h : r.hasGoodToken = .ok true) :
    ∃ token, r.token = .ok token ∧ Json.hasPart ['.', '.'] token.toList = false ∧
      '/' ∉ token.toList := by
  obtain ⟨token, htoken, hgood⟩ := bind_eq_ok.1 h
  have hboth : (!Json.hasPart ['.', '.'] token.toList && !token.toList.contains '/') = true :=
    Except.ok.inj hgood
  simp only [Bool.and_eq_true, Bool.not_eq_true', List.contains_eq_mem, decide_eq_false_iff_not]
    at hboth
  exact ⟨token, htoken, hboth⟩

/-- **Where a good token is shown.** For every host, the URL for a challenge with a good token can
be taken apart: its authority is the host, and its path has one segment behind the directory, which is
the token up to its first delimiter without what URLs leave out. The path is that of the directory
and the token, as one segment that names something in the directory, with nothing behind it, exactly
if the token is not empty, is not a point, and has no question mark, no number sign, no tab and no
line end. -/
theorem Resource.uris_show_tokens (r : Resource) (host : String) (hhost : Url.IsHost host)
    (hgood : r.hasGoodToken = .ok true) :
    ∃ token url, r.token = .ok token ∧ r.uri host = .ok url ∧
      Url.split url = .ok (Url.shown host token) ∧
      pieces '/' (Url.shown host token).path = [[], ".well-known".toList, "acme-challenge".toList,
        (cut '?' (cut '#' (token.toList.filter (· ∉ Url.ignored))).1).1] ∧
      ((Url.shown host token).ShowsToken token ↔
        token ≠ "" ∧ token ≠ "." ∧ ∀ c ∈ token.toList, c ∉ '?' :: '#' :: Url.ignored) := by
  obtain ⟨token, htoken, hpoints, hslash⟩ := token_of_hasGoodToken hgood
  have huri :
      r.uri host = .ok ("http://" ++ host ++ ("/.well-known/acme-challenge/" ++ token)) := by
    rw [uri, path, htoken]
    rfl
  have hparent : token ≠ ".." := by
    rintro rfl
    exact absurd hpoints (by decide)
  exact ⟨token, _, htoken, huri, Url.split_shown hhost, Url.pieces_path_shown host hslash,
    Url.showsToken_iff host hslash hparent⟩

/-- A point, a tab and a point are a good token, and the URL for it names the directory above. -/
theorem Resource.uris_show_tokens_tab :
    let r : Resource := ⟨.challenge .http, none,
      [("type", .string "http-01"), ("token", .string ".\t.")], none⟩
    Url.IsHost "example.com" ∧ r.hasGoodToken = .ok true ∧
      r.uri "example.com" = .ok "http://example.com/.well-known/acme-challenge/.\t." ∧
      ∃ parts, Url.split "http://example.com/.well-known/acme-challenge/.\t." = .ok parts ∧
        parts.path = "/.well-known/acme-challenge/..".toList ∧ ¬ parts.ShowsToken ".\t." := by
  intro r
  have hhost : Url.IsHost "example.com" :=
    ⟨by decide, List.all_iff_forall_prop.1 (by decide)⟩
  have hgood : r.hasGoodToken = .ok true := by rfl
  have huri : r.uri "example.com" = .ok "http://example.com/.well-known/acme-challenge/.\t." := by
    rfl
  obtain ⟨token, url, htoken, hurl, hsplit, -, hshows⟩ := uris_show_tokens r _ hhost hgood
  obtain rfl : ".\t." = token := Except.ok.inj htoken
  obtain rfl := Except.ok.inj (huri.symm.trans hurl)
  refine ⟨hhost, hgood, huri, _, hsplit, by decide, fun h => ?_⟩
  exact (hshows.1 h).2.2 '\t' (by decide) (by decide)

end AcmeClient
