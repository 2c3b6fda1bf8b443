import K180.Firmware.RoundTrip

open byte_format checked libc

namespace k180.gen_fw

/-- A genuine package: what `gen_fw_enc` made of two payloads that the format has room for. It computes with lengths
modulo 2 ^ 32 and refuses a sum beyond the room, so that of longer files it packs a part that fits, or nothing. -/
structure Release (cfg : PackageConfig) (crypto : Crypto) where
  iv : {iv : Bytes // iv.length = 16}
  payload0 : Bytes
  payload1 : Bytes
  package : Package
  fits : payload0.length + payload1.length < 2 ^ 31 - 16
  built : gen_fw_enc cfg crypto iv payload0 payload1 = some package

/-- Nobody can present a file with a valid tag whose IV and ciphertext are not those of a genuine
package. -/
def Unforgeable (cfg : PackageConfig) (crypto : Crypto) (genuine : Set (Release cfg crypto))
    (presented : Set Bytes) : Prop :=
  ∀ f : Package, f.bytes ∈ presented → f.tag = crypto.hmac (f.iv ++ f.ciphertext) →
    ∃ r ∈ genuine, f.iv = r.package.iv ∧ f.ciphertext = r.package.ciphertext

/-- The plaintext behind the IV and the ciphertext of a genuine package is its two payloads, joined. -/
theorem Release.decrypted {cfg : PackageConfig} {crypto : Crypto} (r : Release cfg crypto)
    {plaintext : Bytes} (hplain : crypto.decrypt r.package.iv
      (r.package.ciphertext.take (int_cast r.package.ciphertext.length).toNat) = some plaintext) :
    plaintext = r.payload0 ++ r.payload1 ∧
      r.package.len0 = u32_bytes cfg.order r.payload0.length ∧
      r.package.tag = crypto.hmac (r.package.iv ++ r.package.ciphertext) := by
  obtain ⟨p, henc, _, hiv, hlen0, _, hciphertext, htag⟩ := gen_fw_enc_of_lt cfg crypto r.iv r.fits
  obtain rfl : p = r.package := Option.some.inj (henc.symm.trans r.built)
  have hjoined : (r.payload0 ++ r.payload1).length < 2 ^ 31 - 16 := by
    rw [List.length_append]
    exact r.fits
  rw [hciphertext, hiv, cipher_len_int crypto r.iv _ hjoined, crypto.decrypt_encrypt,
    Option.some.injEq] at hplain
  refine ⟨hplain.symm, hlen0, ?_⟩
  rw [htag, hiv]

/-- A file that `gen_fw_dec` gets as far as installing carries the magic word and the IV, ciphertext and
tag of a genuine package, and what it stages is the joined payloads of that package, cut where the
length fields of the file say; where those are the genuine ones, it stages the genuine payloads. -/
theorem decode_package_genuine (cfg : PackageConfig) (crypto : Crypto)
    (genuine : Set (Release cfg crypto)) (presented : Set Bytes)
    (hunforgeable : Unforgeable cfg crypto genuine presented) (file : Bytes) (hfile : file ∈ presented)
    (staged0 staged1 : Bytes) (hdecode : decode_package cfg crypto file = .ok (staged0, staged1)) :
    ∃ r ∈ genuine, ∃ f : Package, file = f.bytes ∧ f.magic = cfg.magic_word ∧
      f.iv = r.package.iv ∧ f.ciphertext = r.package.ciphertext ∧ f.tag = r.package.tag ∧
      staged0 ++ staged1 = r.payload0 ++ r.payload1 ∧
      staged0.length = u32_value cfg.order f.len0 ∧ staged1.length = u32_value cfg.order f.len1 ∧
      (f.len0 = r.package.len0 → staged0 = r.payload0 ∧ staged1 = r.payload1) := by
  obtain ⟨f, plaintext, rfl, ⟨hmagic, htag, hplain, hlength⟩, hsplit⟩ :=
    decode_package_eq_ok_iff.mp hdecode
  obtain ⟨r, hr, hiv, hciphertext⟩ := hunforgeable f hfile htag
  rw [hiv, hciphertext] at hplain htag
  obtain ⟨rfl, hlen0, htagGenuine⟩ := r.decrypted hplain
  have hfits := r.fits
  have hsize : (r.payload0 ++ r.payload1).length < 2 ^ 31 := by
    rw [List.length_append]
    omega
  obtain ⟨hjoin, hstaged0, hstaged1⟩ :=
    split_payloads_of_sum hsize (u32_value_lt cfg.order f.len1_length) hlength hsplit
  have hword := (strncmp_eq_iff f.magic_length cfg.magic_word_length cfg.magic_word_no_nul).mp hmagic
  refine ⟨r, hr, f, rfl, hword, hiv, hciphertext, htag.trans htagGenuine.symm, hjoin, hstaged0, hstaged1,
    fun hsame => ?_⟩
  rw [hsame, hlen0, u32_value_u32_bytes cfg.order (by omega)] at hstaged0
  exact List.append_inj hjoin hstaged0

/-- The release of the sample payloads, and its file with one byte moved from the first length to the
second. -/
def sample_release : Release sample_config sample_crypto where
  iv := sample_iv
  payload0 := sample_payload0
  payload1 := sample_payload1
  package :=
    { magic := sample_config.magic_word
      iv := sample_iv
      len0 := [6, 0, 0, 0]
      len1 := [4, 0, 0, 0]
      ciphertext := sample_ciphertext
      tag := sample_tag
      magic_length := rfl
      iv_length := rfl
      len0_length := rfl
      len1_length := rfl
      tag_length := rfl }
  fits := by decide
  built := rfl

def sample_shifted : Package :=
  { sample_release.package with
    len0 := [5, 0, 0, 0]
    len1 := [5, 0, 0, 0]
    len0_length := rfl
    len1_length := rfl }

theorem sample_unforgeable :
    Unforgeable sample_config sample_crypto {sample_release} {sample_shifted.bytes} := by
  intro f hpresented _
  obtain ⟨hiv, hciphertext⟩ := Package.fields_eq_of_bytes_eq (Set.mem_singleton_iff.mp hpresented)
  exact ⟨sample_release, Set.mem_singleton sample_release, hiv, hciphertext⟩

theorem decode_sample_shifted :
    decode_package sample_config sample_crypto sample_shifted.bytes =
      .ok ([99, 97, 109, 101, 114], [97, 114, 101, 115, 116]) := by
  rfl

theorem decode_package_genuine_sample :
    ∃ r ∈ ({sample_release} : Set (Release sample_config sample_crypto)), ∃ f : Package,
      sample_shifted.bytes = f.bytes ∧ f.magic = sample_config.magic_word ∧
      f.iv = r.package.iv ∧ f.ciphertext = r.package.ciphertext ∧ f.tag = r.package.tag ∧
      [99, 97, 109, 101, 114] ++ [97, 114, 101, 115, 116] = r.payload0 ++ r.payload1 ∧
      [99, 97, 109, 101, 114].length = u32_value sample_config.order f.len0 ∧
      [97, 114, 101, 115, 116].length = u32_value sample_config.order f.len1 ∧
      (f.len0 = r.package.len0 →
        [99, 97, 109, 101, 114] = r.payload0 ∧ [97, 114, 101, 115, 116] = r.payload1) :=
  decode_package_genuine sample_config sample_crypto {sample_release} {sample_shifted.bytes}
    sample_unforgeable sample_shifted.bytes (Set.mem_singleton _) _ _ decode_sample_shifted

/-- A genuine package with one byte moved from one length field to the other is accepted, and other
files than the genuine payloads are staged. -/
theorem shifted_lengths_accepted :
    Unforgeable sample_config sample_crypto {sample_release} {sample_shifted.bytes} ∧
      sample_shifted.bytes.take 48 = sample_release.package.bytes.take 48 ∧
      sample_shifted.bytes.drop 56 = sample_release.package.bytes.drop 56 ∧
      decode_package sample_config sample_crypto sample_shifted.bytes =
        .ok ([99, 97, 109, 101, 114], [97, 114, 101, 115, 116]) ∧
      ¬ ∃ r ∈ ({sample_release} : Set (Release sample_config sample_crypto)),
        [99, 97, 109, 101, 114] = r.payload0 ∧ [97, 114, 101, 115, 116] = r.payload1 := by
  refine ⟨sample_unforgeable, rfl, rfl, decode_sample_shifted, ?_⟩
  rintro ⟨r, rfl, hpayload0, _⟩
  exact absurd hpayload0 (by decide)

end k180.gen_fw
