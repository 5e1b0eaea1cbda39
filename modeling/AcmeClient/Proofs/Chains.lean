import AcmeClient.Proofs.Armour
import AcmeClient.X509.Certificate

/-!
# Chains are read back

A chain is written as one block for each certificate. A text of blocks is read exactly when each of
them holds a certificate, and then it is what is written for the chain:

* `Certificate.ofBlock_eq_ok_iff` — a block is read as the certificate that its octets are;
* `Certificate.AreBlocks` — octets that are blocks, one after the other, with any base64 in them;
* `Certificate.chainOfPem_eq_ok_iff` — what is read of them;
* `Certificate.chains_are_read_back` — reading and writing undo each other.
-/

namespace AcmeClient.X509.Certificate

open Asn1 Text

variable {cs : List Certificate} {css : List (List Char)} {x : List UInt8}

/-- Whether octets are blocks for certificates with some base64, one after the other. -/
def AreBlocks (css : List (List Char)) (x : List UInt8) : Prop :=
  ∃ texts, List.Forall₂ (Pem.IsBlock "CERTIFICATE") css texts ∧ x = Utf8.encode (String.join texts)

theorem isLabel_certificate : Pem.IsLabel "CERTIFICATE" :=
  ⟨by decide, by decide, Pem.isAscii_of_all (by decide)⟩

theorem ofDer?_eq_some_iff {bs : List UInt8} {c : Certificate} :
    ofDer? bs = some c ↔ bs = c.der := by
  rw [ofDer?]
  constructor
  · intro h
    split at h
    · rw [← Option.some.inj h]
    · cases h
  · rintro rfl
    rw [dif_pos c.wellFormed]

/-- A block is read as the certificate that its octets are. -/
theorem ofBlock_eq_ok_iff {b : Pem.Block} {c : Certificate} :
    ofBlock b = .ok c ↔ b.octets = c.der := by
  rw [← ofDer?_eq_some_iff, ofBlock]
  cases ofDer? b.octets with
  | some c' => simp
  | none => cases certificateVersion? b.octets <;> simp

/-- The text of blocks is ASCII. -/
theorem encode_of_areBlocks {texts : List String}
    (h : List.Forall₂ (Pem.IsBlock "CERTIFICATE") css texts) :
    Utf8.encode (String.join texts) = Pem.ascii (String.join texts) := by
  refine Pem.encode_eq_ascii fun c hc => ?_
  rw [String.toList_join] at hc
  obtain ⟨text, htext, hc⟩ := List.mem_flatMap.1 hc
  exact forall_mem_of_forall₂ h (fun _ _ => Pem.isAscii_of_isBlock isLabel_certificate)
    text htext c hc

/-- A mark is mentioned in octets that begin with it. -/
theorem mentions_append (mark rest : List UInt8) : mentions mark (mark ++ rest) = true := by
  cases mark with
  | nil => cases rest <;> rfl
  | cons m mark =>
    have hprefix : (m :: mark).isPrefixOf (m :: mark ++ rest) = true := by simp
    rw [List.cons_append] at hprefix ⊢
    rw [mentions, hprefix, Bool.true_or]

theorem mentions_of_isBlock {body : List Char} {text : String}
    (h : Pem.IsBlock "CERTIFICATE" body text) (rest : List UInt8) :
    mentions marker (Pem.ascii text ++ rest) = true := by
  obtain ⟨ls, -, htext⟩ := Pem.ascii_of_isBlock h
  rw [htext, Pem.ascii_armoured]
  exact mentions_append marker _

def isOurs (b : Pem.Block) : Bool :=
  b.label = "CERTIFICATE" ∨ b.label = "X509 CERTIFICATE"

/-- A text that is read has blocks for certificates, which hold what is read. -/
theorem exists_blocks (h : chainOfPem x = .ok cs) : ∃ blocks, Pem.blocks? x = some blocks ∧
    blocks.filter isOurs ≠ [] ∧
    List.Forall₂ (fun b c => b.octets = c.der) (blocks.filter isOurs) cs := by
  rw [chainOfPem] at h
  split at h
  · cases h
  dsimp only at h
  split at h
  · cases h
  next blocks hblocks =>
    have hours : blocks.filter (fun b => b.label = "CERTIFICATE" ∨ b.label = "X509 CERTIFICATE")
        = blocks.filter isOurs := rfl
    rw [hours] at h
    split at h
    · cases h
    next ours hne =>
      refine ⟨blocks, hblocks, hne, ?_⟩
      simpa only [mapM_eq_ok, ofBlock_eq_ok_iff] using h

/-- A text that is read has a certificate. -/
theorem ne_nil_of_chainOfPem (h : chainOfPem x = .ok cs) : cs ≠ [] := by
  obtain ⟨blocks, -, hne, hours⟩ := exists_blocks h
  rintro rfl
  exact hne (List.forall₂_nil_right_iff.1 hours)

/-- A text whose blocks are all for certificates is read as what they hold. -/
theorem chainOfPem_of_blocks {blocks : List Pem.Block} (hmentions : mentions marker x = true)
    (hblocks : Pem.blocks? x = some blocks) (hne : blocks ≠ [])
    (hours : ∀ b ∈ blocks, isOurs b = true)
    (hcs : List.Forall₂ (fun b c => b.octets = c.der) blocks cs) : chainOfPem x = .ok cs := by
  have hfilter : blocks.filter (fun b => b.label = "CERTIFICATE" ∨ b.label = "X509 CERTIFICATE")
      = blocks := List.filter_eq_self.2 hours
  have hread : blocks.mapM ofBlock = .ok cs := by
    simpa only [mapM_eq_ok, ofBlock_eq_ok_iff] using hcs
  obtain ⟨b, bs, rfl⟩ := List.exists_cons_of_ne_nil hne
  rw [chainOfPem, hmentions, hblocks]
  simp only [hfilter]
  exact hread

/-! ### Blocks for certificates -/

/-- The block for a certificate with some base64. -/
theorem block_eq_some_iff {body : List Char} {b : Pem.Block} :
    ((Base64.decodePadded body).map fun bs => (⟨"CERTIFICATE", bs⟩ : Pem.Block)) = some b ↔
      b.label = "CERTIFICATE" ∧ Base64.IsPadded b.octets body := by
  obtain ⟨label, bs⟩ := b
  rw [Option.map_eq_some_iff, ← Base64.decodePadded_eq_some_iff]
  constructor
  · rintro ⟨bs', hbs', heq⟩
    cases heq
    exact ⟨rfl, hbs'⟩
  · rintro ⟨rfl, hbs⟩
    exact ⟨bs, hbs, rfl⟩

/-- Blocks are read exactly when there is one, and each of them holds a certificate. -/
theorem chainOfPem_eq_ok_iff (h : AreBlocks css x) : chainOfPem x = .ok cs ↔
    cs ≠ [] ∧ List.Forall₂ (fun c body => Base64.IsPadded c.der body) cs css := by
  obtain ⟨texts, htexts, rfl⟩ := h
  have hblocks : ∀ blocks, Pem.blocks? (Utf8.encode (String.join texts)) = some blocks ↔
      List.Forall₂ (fun body b => b.label = "CERTIFICATE" ∧ Base64.IsPadded b.octets body)
        css blocks := by
    intro blocks
    rw [encode_of_areBlocks htexts, Pem.blocks?_of_areBlocks isLabel_certificate htexts,
      mapM_eq_some_iff]
    simp only [block_eq_some_iff]
  constructor
  · intro h
    refine ⟨ne_nil_of_chainOfPem h, ?_⟩
    obtain ⟨blocks, hread, -, hcs⟩ := exists_blocks h
    have hbodies := (hblocks blocks).1 hread
    have hours : blocks.filter isOurs = blocks := by
      refine List.filter_eq_self.2 (forall_mem_of_forall₂ hbodies fun _ b hb => ?_)
      simp [isOurs, hb.1]
    rw [hours] at hcs
    have hbody : ∀ body (c : Certificate), (∃ b : Pem.Block, (b.label = "CERTIFICATE" ∧
        Base64.IsPadded b.octets body) ∧ b.octets = c.der) → Base64.IsPadded c.der body := by
      rintro body c ⟨b, ⟨-, hb⟩, hc⟩
      rwa [← hc]
    exact List.Forall₂.flip ((forall₂_comp hbodies hcs).imp hbody)
  · rintro ⟨hne, hcs⟩
    -- the texts are those of the certificates, of which there is one
    have hread : Pem.blocks? (Utf8.encode (String.join texts))
        = some (cs.map fun c => ⟨"CERTIFICATE", c.der⟩) := by
      rw [hblocks, List.forall₂_map_right_iff]
      exact hcs.flip.imp fun _ _ hc => ⟨rfl, hc⟩
    have hmentions : mentions marker (Utf8.encode (String.join texts)) = true := by
      rw [encode_of_areBlocks htexts, Pem.ascii_join]
      cases htexts with
      | nil => exact absurd (List.forall₂_nil_right_iff.1 hcs) hne
      | cons htext _ => exact mentions_of_isBlock htext _
    refine chainOfPem_of_blocks hmentions hread (by simpa using hne) ?_ ?_
    · exact List.forall_mem_map.2 fun c _ => rfl
    · rw [List.forall₂_map_left_iff, List.forall₂_same]
      exact fun c _ => rfl

/-- What is written for a chain is blocks with the base64 of its certificates. -/
theorem areBlocks_pemOfChain (cs : List Certificate) :
    AreBlocks (cs.map fun c => (Base64.encodePadded c.der).toList)
      (Utf8.encode (pemOfChain cs)) := by
  refine ⟨cs.map pem, ?_, rfl⟩
  rw [List.forall₂_map_left_iff, List.forall₂_map_right_iff, List.forall₂_same]
  exact fun c _ => Pem.isBlock_block "CERTIFICATE" c.der

/-- Blocks that are read are what is written for the chain. -/
theorem encode_pemOfChain_of_eq_ok (hx : AreBlocks css x) (h : chainOfPem x = .ok cs) :
    Utf8.encode (pemOfChain cs) = x := by
  obtain ⟨-, hcs⟩ := (chainOfPem_eq_ok_iff hx).1 h
  obtain ⟨texts, htexts, rfl⟩ := hx
  have heq : cs.map pem = texts := by
    clear h
    induction hcs generalizing texts with
    | nil => cases htexts; rfl
    | cons hc _ ih =>
      cases htexts with
      | cons htext htexts => rw [List.map_cons, ih _ htexts, Pem.eq_block_of_isBlock htext hc, pem]
  rw [pemOfChain, heq]

/-- What is written for a chain is read as the chain. -/
theorem chainOfPem_pemOfChain (hne : cs ≠ []) :
    chainOfPem (Utf8.encode (pemOfChain cs)) = .ok cs := by
  rw [chainOfPem_eq_ok_iff (areBlocks_pemOfChain cs), List.forall₂_map_right_iff, List.forall₂_same]
  exact ⟨hne, fun c _ => Base64.isPadded_encodePadded c.der⟩

/-- **Chains are read back.** A chain that is not empty is read from what is written for it. Blocks
with any base64 are read as the certificates that they hold, and they are what is written for these.
A text that is read has a certificate. -/
theorem chains_are_read_back (cs : List Certificate) (x : List UInt8) :
    (cs ≠ [] → chainOfPem (Utf8.encode (pemOfChain cs)) = .ok cs) ∧
    (∀ css, AreBlocks css x →
      (chainOfPem x = .ok cs ↔
        cs ≠ [] ∧ List.Forall₂ (fun c body => Base64.IsPadded c.der body) cs css) ∧
      (chainOfPem x = .ok cs → Utf8.encode (pemOfChain cs) = x)) ∧
    (chainOfPem x = .ok cs → cs ≠ []) :=
  ⟨chainOfPem_pemOfChain, fun _ hblocks => ⟨chainOfPem_eq_ok_iff hblocks,
    encode_pemOfChain_of_eq_ok hblocks⟩, ne_nil_of_chainOfPem⟩

/-- An algorithm without parameters, as it is written in a certificate. -/
def sampleAlgorithm : List UInt8 :=
  sequenceOf [element 0x06 [0x2b, 0x65, 0x70]]

/-- A certificate with empty names. -/
def sample : Certificate where
  der := sequenceOf [sequenceOf [element 0x02 [1], sampleAlgorithm, sequenceOf [],
      sequenceOf [element 0x17 (Pem.ascii "200101000000Z"),
        element 0x17 (Pem.ascii "300101000000Z")],
      sequenceOf [], sequenceOf [sampleAlgorithm, element 0x03 [0, 1]]],
    sampleAlgorithm, element 0x03 [0, 2]]
  wellFormed := by decide +kernel

def sampleText : String :=
  "-----BEGIN CERTIFICATE-----\n" ++
    "MEgwOwIBATAFBgMrZXAwADAeFw0yMDAxMDEwMDAwMDBaFw0zMDAxMDEwMDAwMDBa\n" ++
    "MAAwCzAFBgMrZXADAgABMAUGAytlcAMCAAI=\n" ++
    "-----END CERTIFICATE-----\n"

theorem chains_are_read_back_sample :
    pem sample = sampleText ∧
      chainOfPem (Utf8.encode (pemOfChain [sample, sample])) = .ok [sample, sample] ∧
      AreBlocks [(Base64.encodePadded sample.der).toList] (Utf8.encode (pemOfChain [sample])) ∧
      chainOfPem (Utf8.encode (pemOfChain [sample])) = .ok [sample] := by
  have htext : pem sample = sampleText := by decide +kernel
  have hblocks := areBlocks_pemOfChain [sample]
  have hone := (chains_are_read_back [sample] (Utf8.encode (pemOfChain [sample]))).2.1 _ hblocks
  refine ⟨htext, (chains_are_read_back [sample, sample] []).1 (by simp), hblocks, hone.1.2 ?_⟩
  exact ⟨by simp, .cons (Base64.isPadded_encodePadded sample.der) .nil⟩

end AcmeClient.X509.Certificate
