/-
# No nonce is let out twice

Sealers and engines with a key in hand share a counted source and use it in any order, for whole
messages and for streams, to seal and to open, and any of these calls may fail anywhere.  This
module says that the nonces of the headers that get out are all different (`nonces_never_repeat`).

* A call spends at most one value of the counter (`Use.spends_run`), so by induction on the calls
  the values that get out rise (`Use.rises_outputs`), and at its end the counter stays
  (`Use.outputs_of_end`).
* Whoever sees the outputs sees that much: at most one header stands at the beginning of some bytes,
  whatever keys are tried, and the counter is written in a form that can be read back.  So headers
  of two outputs differ in their nonces (`Use.Rises.fresh`).
-/
import Envelope.Proofs.Header.PrefixFree
import Envelope.Proofs.Nonce
import Envelope.Suite

namespace Envelope

open NonceSource

/-! ## 1. Any call -/

/-- **A use of a source of nonces.**  The sealer or the engine, the keys, the names asked for
before, and for a stream its source and its writer are whatever they are at that time; only the
source of nonces is handed from one use to the next. -/
inductive Use where
  | encrypt (s : Sealer) (asked : List String) (plain : Bytes)
  | encryptStream (s : Sealer) (asked : List String) (source : StreamSource) (writer : Writer)
  | decrypt (s : Sealer) (asked : List String) (ciphertext : Bytes)
  | decryptStream (s : Sealer) (asked : List String) (source : StreamSource) (writer : Writer)
  | encryptWith (engine : Engine) (key : Key) (plain : Bytes)
  | encryptStreamWith (engine : Engine) (key : Key) (chunkSize : Nat) (source : StreamSource)
      (writer : Writer)
  | decryptWith (engine : Engine) (key : Key) (ciphertext : Bytes)
  | decryptStreamWith (engine : Engine) (key : Key) (chunkSize : Nat) (source : StreamSource)
      (writer : Writer)

namespace Use

/-- What a use lets out that was sealed, and the source that it leaves.  An opening lets out nothing
that was sealed. -/
def run (nonces : NonceSource) : Use → Output × NonceSource
  | .encrypt s asked plain =>
    let result := s.encrypt plain { nonces, asked }
    (.returned result, (leftBy result).nonces)
  | .encryptStream s asked source writer =>
    let result := s.encryptStream { nonces, asked, source, writer }
    (.written (fun t => t.writer.received) writer.received result, (leftBy result).nonces)
  | .decrypt s asked ciphertext =>
    (⟨[], false⟩, (leftBy (s.decrypt ciphertext { nonces, asked })).nonces)
  | .decryptStream s asked source writer =>
    (⟨[], false⟩, (leftBy (s.decryptStream { nonces, asked, source, writer })).nonces)
  | .encryptWith engine key plain =>
    let result := WithKey.encrypt key plain { engine, nonces }
    (.returned result, (leftBy result).nonces)
  | .encryptStreamWith engine key chunkSize source writer =>
    let result := WithKey.encryptStream key chunkSize { engine, nonces, source, writer }
    (.written (fun t => t.writer.received) writer.received result, (leftBy result).nonces)
  | .decryptWith engine key ciphertext =>
    (⟨[], false⟩, (leftBy (WithKey.decrypt key ciphertext { engine, nonces })).nonces)
  | .decryptStreamWith engine key chunkSize source writer =>
    (⟨[], false⟩,
      (leftBy (WithKey.decryptStream key chunkSize { engine, nonces, source, writer })).nonces)

/-- **Every use spends at most one value.** -/
theorem spends_run (fixedPart : Bytes) (next : Nat) (u : Use) :
    Spends fixedPart next (u.run (.counted fixedPart next)).1
      (u.run (.counted fixedPart next)).2 := by
  cases u with
  | encrypt s asked plain => exact s.spends_encrypt plain rfl
  | encryptStream s asked source writer =>
    exact s.spends_encryptStream
      (t := { nonces := .counted fixedPart next, asked, source, writer }) rfl
  | decrypt s asked ciphertext => exact Or.inl ⟨s.keeps_decrypt ciphertext _, rfl⟩
  | decryptStream s asked source writer => exact Or.inl ⟨s.keeps_decryptStream _, rfl⟩
  | encryptWith engine key plain => exact WithKey.spends_encrypt key plain rfl
  | encryptStreamWith engine key chunkSize source writer =>
    exact WithKey.spends_encryptStream key chunkSize
      (t := { engine, nonces := .counted fixedPart next, source, writer }) rfl
  | decryptWith engine key ciphertext => exact Or.inl ⟨WithKey.keeps_decrypt key ciphertext _, rfl⟩
  | decryptStreamWith engine key chunkSize source writer =>
    exact Or.inl ⟨WithKey.keeps_decryptStream key chunkSize _, rfl⟩

/-! ## 2. Any number of calls -/

/-- The source after some uses of it. -/
def after (uses : List Use) (nonces : NonceSource) : NonceSource :=
  uses.foldl (fun nonces u => (u.run nonces).2) nonces

/-- What some uses let out, one after the other; those that let nothing out are left out. -/
def outputs : List Use → NonceSource → List Output
  | [], _ => []
  | u :: uses, nonces =>
    let (out, nonces) := u.run nonces
    if out.bytes = [] then outputs uses nonces else out :: outputs uses nonces

/-- **What the outputs of a run carry**: values of the counter that rise from where it stood to
where it is left. -/
structure Rises (fixedPart : Bytes) (first last : Nat) (values : List Nat) (outs : List Output) :
    Prop where
  numbered : List.Forall₂ (Output.Numbered fixedPart) values outs
  rising : values.Pairwise (· < ·)
  within : ∀ v ∈ values, first ≤ v ∧ v < last

/-- **Any number of uses**, by induction on them. -/
theorem rises_outputs (fixedPart : Bytes) (uses : List Use) {next : Nat} (h : next ≤ counterEnd) :
    ∃ last values, after uses (.counted fixedPart next) = .counted fixedPart last ∧
      next ≤ last ∧ last ≤ counterEnd ∧
      Rises fixedPart next last values (outputs uses (.counted fixedPart next)) := by
  induction uses generalizing next with
  | nil =>
    exact ⟨next, [], rfl, Nat.le_refl _, h, .nil, .nil, fun v hv => absurd hv List.not_mem_nil⟩
  | cons u uses ih =>
    obtain ⟨out, nonces, hrun⟩ : ∃ out nonces, u.run (.counted fixedPart next) = (out, nonces) :=
      ⟨_, _, rfl⟩
    have hspends : Spends fixedPart next out nonces := by
      have hu := u.spends_run fixedPart next
      rw [hrun] at hu
      exact hu
    have hafter : after (u :: uses) (.counted fixedPart next) = after uses nonces := by
      rw [after, List.foldl_cons, hrun]
      rfl
    have houtputs : outputs (u :: uses) (.counted fixedPart next) =
        if out.bytes = [] then outputs uses nonces else out :: outputs uses nonces := by
      rw [outputs, hrun]
    rw [hafter, houtputs]
    rcases hspends with ⟨rfl, hnone⟩ | ⟨hlt, rfl, hout⟩
    · -- nothing was drawn
      rw [if_pos hnone]
      exact ih h
    · obtain ⟨last, values, hlast, hle, hend, hrises⟩ := ih (Nat.succ_le_of_lt hlt)
      by_cases hnone : out.bytes = []
      · -- a value was drawn and given up
        rw [if_pos hnone]
        refine ⟨last, values, hlast, by omega, hend, hrises.numbered, hrises.rising, ?_⟩
        intro v hv
        obtain ⟨hv₁, hv₂⟩ := hrises.within v hv
        exact ⟨by omega, hv₂⟩
      · -- a value was drawn and let out, and the later ones are above it
        rw [if_neg hnone]
        have hnumbered := hout.resolve_left hnone
        refine ⟨last, next :: values, hlast, by omega, hend, .cons hnumbered hrises.numbered,
          List.pairwise_cons.mpr ⟨?_, hrises.rising⟩, ?_⟩
        · intro v hv
          obtain ⟨hv₁, -⟩ := hrises.within v hv
          omega
        · intro v hv
          rcases List.mem_cons.mp hv with rfl | hv
          · exact ⟨Nat.le_refl _, by omega⟩
          · obtain ⟨hv₁, hv₂⟩ := hrises.within v hv
            exact ⟨by omega, hv₂⟩

/-- **Nothing gets out of an exhausted source**, and it stays exhausted. -/
theorem outputs_of_end (fixedPart : Bytes) (uses : List Use) :
    outputs uses (.counted fixedPart counterEnd) = [] ∧
      after uses (.counted fixedPart counterEnd) = .counted fixedPart counterEnd := by
  obtain ⟨last, values, hlast, hle, hend, hrises⟩ :=
    rises_outputs fixedPart uses (Nat.le_refl counterEnd)
  obtain rfl : last = counterEnd := Nat.le_antisymm hend hle
  refine ⟨?_, hlast⟩
  cases values with
  | nil => exact List.forall₂_nil_left_iff.mp hrises.numbered
  | cons v values =>
    obtain ⟨hv₁, hv₂⟩ := hrises.within v List.mem_cons_self
    omega

end Use

/-! ## 3. What can be seen -/

/-- **No header at the beginning of one output has the nonce of a header at the beginning of the
other**, whatever keys they are tried with. -/
def Output.Fresh (out out' : Output) : Prop :=
  ∀ (h h' : Header) (key key' : Key), h.Built → h'.Built → h.encodeWith key <+: out.bytes →
    h'.encodeWith key' <+: out'.bytes → h.nonce ≠ h'.nonce

/-- The only header at the beginning of an output is the one that carries its value. -/
theorem Output.Numbered.nonce_eq {fixedPart : Bytes} {v : Nat} {out : Output}
    (hn : out.Numbered fixedPart v) {h : Header} {key : Key} (hb : h.Built)
    (hfront : h.encodeWith key <+: out.bytes) : h.nonce = numbered fixedPart v := by
  obtain ⟨g, hg, hnonce, key', hshows⟩ := hn
  rw [← hnonce]
  rcases hshows with hwhole | ⟨-, hpart⟩
  · exact (Header.agrees_of_prefix hg hb hwhole hfront).2.nonce
  · exact (Header.agrees_of_prefix hg hb (List.prefix_refl _) (hfront.trans hpart)).2.nonce

/-- Outputs that carry different values are fresh to each other. -/
theorem Output.Numbered.fresh {fixedPart : Bytes} {v v' : Nat} {out out' : Output}
    (hn : out.Numbered fixedPart v) (hn' : out'.Numbered fixedPart v') (hv : v < v')
    (hend : v' < counterEnd) : out.Fresh out' := by
  intro h h' key key' hb hb' hfront hfront' hsame
  rw [hn.nonce_eq hb hfront, hn'.nonce_eq hb' hfront'] at hsame
  have := numbered_inj (hv.trans hend) hend hsame
  omega

/-- So all the outputs of a run are. -/
theorem Use.Rises.fresh {fixedPart : Bytes} {first last : Nat} {values : List Nat}
    {outs : List Output} (h : Rises fixedPart first last values outs) (hend : last ≤ counterEnd) :
    outs.Pairwise Output.Fresh := by
  rw [List.pairwise_iff_getElem]
  intro i j hi hj hij
  have hlength := h.numbered.length_eq
  have hi' : i < values.length := by omega
  have hj' : j < values.length := by omega
  have hout : Output.Numbered fixedPart values[i] outs[i] := h.numbered.get hi' hi
  have hout' : Output.Numbered fixedPart values[j] outs[j] := h.numbered.get hj' hj
  have hrising : values[i] < values[j] :=
    List.pairwise_iff_getElem.mp h.rising i j hi' hj' hij
  have hlast := (h.within values[j] (List.getElem_mem hj')).2
  exact hout.fresh hout' hrising (by omega)

/-- **A counted source never repeats a nonce.**  For every fixed part, every value the counter may
start from, and all uses of the source in any order:

* the source is left with the counter at `last`, which is not below the start and not above the end;
* what was let out carries values that rise, from the start on and below `last`: every output begins
  with a header of the format whose nonce is the fixed part and the value, most significant byte
  first, or is a front of such a header and its call has failed;
* so headers at the beginning of different outputs have different nonces;
* at the end of the counter there is no further nonce; the failure is one of state, the counter
  stays where it is, and no use lets out anything any more. -/
theorem nonces_never_repeat (fixedPart : Bytes) {start : Nat} (hstart : start ≤ counterEnd)
    (uses : List Use) :
    (∃ last values,
      Use.after uses (.counted fixedPart start) = .counted fixedPart last ∧
        start ≤ last ∧ last ≤ counterEnd ∧
        values.Pairwise (· < ·) ∧ (∀ v ∈ values, start ≤ v ∧ v < last) ∧
        List.Forall₂ (Output.Numbered fixedPart) values
          (Use.outputs uses (.counted fixedPart start)) ∧
        (Use.outputs uses (.counted fixedPart start)).Pairwise Output.Fresh) ∧
      generate (.counted fixedPart counterEnd) =
        .error (.state .nonceExhausted) (.counted fixedPart counterEnd) ∧
      ∀ more, Use.outputs more (.counted fixedPart counterEnd) = [] ∧
        Use.after more (.counted fixedPart counterEnd) = .counted fixedPart counterEnd := by
  refine ⟨?_, generate_of_le (Nat.le_refl _), Use.outputs_of_end fixedPart⟩
  obtain ⟨last, values, hlast, hle, hend, hrises⟩ := Use.rises_outputs fixedPart uses hstart
  exact ⟨last, values, hlast, hle, hend, hrises.rising, hrises.within, hrises.numbered,
    hrises.fresh hend⟩

/-- The last value but one, then the last, for a sealer and for a key in hand, and a third call that
finds the counter at its end: two outputs, and their headers have different nonces. -/
theorem nonces_never_repeat_last_two :
    ∃ uses, uses.length = 3 ∧
      (Use.outputs uses (.counted (Bytes.zeros 4) (counterEnd - 2))).length = 2 ∧
      (Use.outputs uses (.counted (Bytes.zeros 4) (counterEnd - 2))).Pairwise Output.Fresh ∧
      Use.after uses (.counted (Bytes.zeros 4) (counterEnd - 2)) =
        .counted (Bytes.zeros 4) counterEnd := by
  obtain ⟨uses, huses⟩ : ∃ uses : List Use, uses =
      [.encrypt ⟨{ keyAlias := "k" }, .fixed ⟨Bytes.zeros 16⟩, Suite.engine .aes128Gcm, 12⟩ [] [1],
        .encryptWith (Suite.engine .aes128Gcm) ⟨Bytes.zeros 16⟩ [2],
        .encryptWith (Suite.engine .aes128Gcm) ⟨Bytes.zeros 16⟩ [3]] := ⟨_, rfl⟩
  obtain ⟨⟨last, values, hlast, -, -, -, -, -, hfresh⟩, -⟩ :=
    nonces_never_repeat (Bytes.zeros 4) (Nat.sub_le counterEnd 2) uses
  refine ⟨uses, by rw [huses]; rfl, ?_, hfresh, ?_⟩
  · rw [huses]
    decide +kernel
  · have hpeek : (Use.after uses (.counted (Bytes.zeros 4) (counterEnd - 2))).peek =
        some counterEnd := by
      rw [huses]
      decide +kernel
    rw [hlast] at hpeek
    obtain rfl := Option.some.inj hpeek
    exact hlast

end Envelope
