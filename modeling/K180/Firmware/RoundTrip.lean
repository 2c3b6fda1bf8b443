import K180.Firmware.Package

open byte_format checked libc

namespace k180.gen_fw

/-- A package built without truncating either input holds exactly these fields. -/
theorem gen_fw_enc_of_lt (cfg : PackageConfig) (crypto : Crypto) (iv : {iv : Bytes // iv.length = 16})
    {payload0 payload1 : Bytes} (hsize : payload0.length + payload1.length < 2 ^ 31 - 16) :
    ∃ p, gen_fw_enc cfg crypto iv payload0 payload1 = some p ∧ p.magic = cfg.magic_word ∧ p.iv = iv ∧
      p.len0 = u32_bytes cfg.order payload0.length ∧ p.len1 = u32_bytes cfg.order payload1.length ∧
      p.ciphertext = crypto.encrypt iv (payload0 ++ payload1) ∧
      p.tag = crypto.hmac (iv ++ p.ciphertext) := by
  have hlen0 : payload0.length % 2 ^ 32 = payload0.length := Nat.mod_eq_of_lt (by omega)
  have hlen1 : payload1.length % 2 ^ 32 = payload1.length := Nat.mod_eq_of_lt (by omega)
  have htotal : (payload0.length + payload1.length) % 2 ^ 32 = payload0.length + payload1.length :=
    Nat.mod_eq_of_lt (by omega)
  have hfits : ¬ (decide (payload0.length + payload1.length ≠ payload0.length + payload1.length) ||
      decide (2 ^ 31 - 16 ≤ payload0.length + payload1.length)) = true := by
    simp only [ne_eq, not_true_eq_false, decide_false, Bool.false_or, decide_eq_true_eq]
    omega
  unfold gen_fw_enc
  simp only [hlen0, hlen1, htotal, List.take_length]
  rw [if_neg hfits]
  exact ⟨_, rfl, rfl, rfl, rfl, rfl, rfl, rfl⟩

/-- The ciphertext of joined payloads of this size still has a length that is an `int`. -/
theorem cipher_len_int (crypto : Crypto) (iv plain : Bytes) (hsize : plain.length < 2 ^ 31 - 16) :
    (crypto.encrypt iv plain).take (int_cast (crypto.encrypt iv plain).length).toNat =
      crypto.encrypt iv plain := by
  have hlen := crypto.encrypt_length iv plain
  have hcast : int_cast (crypto.encrypt iv plain).length = (crypto.encrypt iv plain).length :=
    int_cast_of_bounds (by omega) (by omega)
  rw [hcast, Int.toNat_natCast, List.take_length]

/-- `gen_fw_dec` recovers from the file that `gen_fw_enc` writes the two payloads it was given, in their
order: for all payloads the 32-bit lengths have room for, every IV and every magic word the two tools
share. -/
theorem decode_gen_fw_enc (cfg : PackageConfig) (crypto : Crypto) (iv : {iv : Bytes // iv.length = 16})
    (payload0 payload1 : Bytes) (hsize : payload0.length + payload1.length < 2 ^ 31 - 16) :
    ∃ p, gen_fw_enc cfg crypto iv payload0 payload1 = some p ∧
      decode_package cfg crypto p.bytes = .ok (payload0, payload1) := by
  obtain ⟨p, henc, hmagic, hiv, hlen0, hlen1, hciphertext, htag⟩ := gen_fw_enc_of_lt cfg crypto iv hsize
  have hjoined : (payload0 ++ payload1).length < 2 ^ 31 - 16 := by
    rw [List.length_append]
    exact hsize
  have hvalue0 : u32_value cfg.order p.len0 = payload0.length := by
    rw [hlen0]
    exact u32_value_u32_bytes cfg.order (by omega)
  have hvalue1 : u32_value cfg.order p.len1 = payload1.length := by
    rw [hlen1]
    exact u32_value_u32_bytes cfg.order (by omega)
  refine ⟨p, henc, decode_package_eq_ok_iff.mpr ⟨p, payload0 ++ payload1, rfl, ?_, ?_⟩⟩
  · constructor
    case magic =>
      rw [hmagic]
      exact strncmp_eq_self 32 cfg.magic_word
    case tag =>
      rw [htag, hiv]
    case decrypted =>
      rw [hciphertext, hiv, cipher_len_int crypto iv _ hjoined]
      exact crypto.decrypt_encrypt iv _
    case length =>
      rw [hvalue0, hvalue1, List.length_append]
  · rw [hvalue0, hvalue1]
    exact split_payloads_append (by omega)

/-- A stand-in for the cipher: nothing but the padding. -/
def pad (plain : Bytes) : Bytes :=
  plain ++ List.replicate (16 - plain.length % 16) (UInt8.ofNat (16 - plain.length % 16))

def unpad (ciphertext : Bytes) : Option Bytes :=
  let count := (ciphertext.getLastD 0).toNat
  let plain := ciphertext.take (ciphertext.length - count)
  if ciphertext = pad plain then some plain else none

theorem unpad_pad (plain : Bytes) : unpad (pad plain) = some plain := by
  have hcount : 16 - plain.length % 16 ≠ 0 := by omega
  have hlast : ((pad plain).getLastD 0).toNat = 16 - plain.length % 16 := by
    rw [pad, List.getLastD_eq_getLast?, List.getLast?_append, List.getLast?_replicate, if_neg hcount,
      Option.some_or, Option.getD_some, UInt8.toNat_ofNat']
    omega
  have hplain : (pad plain).take ((pad plain).length - (16 - plain.length % 16)) = plain := by
    rw [pad, List.length_append, List.length_replicate, Nat.add_sub_cancel, List.take_left]
  rw [unpad, hlast, hplain, if_pos rfl]

theorem pad_length (plain : Bytes) : (pad plain).length = 16 * (plain.length / 16 + 1) := by
  rw [pad, List.length_append, List.length_replicate]
  omega

def sample_iv : {iv : Bytes // iv.length = 16} :=
  ⟨[0, 1, 2, 3, 4, 5, 6, 7, 8, 9, 10, 11, 12, 13, 14, 15], rfl⟩

/-- The bytes of `camera` and of `rest`, and what the two algorithms make of them under the keys of
`config_user_JongShyn.h` and the IV above. -/
def sample_payload0 : Bytes := [99, 97, 109, 101, 114, 97]
def sample_payload1 : Bytes := [114, 101, 115, 116]
def sample_ciphertext : Bytes :=
  [227, 56, 75, 163, 105, 53, 236, 91, 195, 155, 179, 224, 45, 124, 142, 238]
def sample_tag : Bytes :=
  [240, 184, 97, 150, 143, 59, 138, 100, 229, 190, 134, 121, 184, 168, 219, 56, 132, 222, 31, 191, 162,
    168, 192, 64, 140, 64, 226, 176, 128, 11, 160, 57]

def sample_encrypt (iv plain : Bytes) : Bytes :=
  if iv = sample_iv ∧ plain = sample_payload0 ++ sample_payload1 then sample_ciphertext else pad plain

def sample_decrypt (iv ciphertext : Bytes) : Option Bytes :=
  if iv = sample_iv ∧ ciphertext = sample_ciphertext then some (sample_payload0 ++ sample_payload1)
  else unpad ciphertext

theorem sample_decrypt_encrypt (iv plain : Bytes) :
    sample_decrypt iv (sample_encrypt iv plain) = some plain := by
  unfold sample_encrypt
  split
  · rename_i hsample
    rw [sample_decrypt, if_pos ⟨hsample.1, rfl⟩, hsample.2]
  · have hother : pad plain ≠ sample_ciphertext := by
      intro hpad
      have hunpad := unpad_pad plain
      rw [hpad] at hunpad
      exact absurd hunpad (by rw [show unpad sample_ciphertext = none by decide]; simp)
    rw [sample_decrypt, if_neg fun h => hother h.2]
    exact unpad_pad plain

/-- The algorithms, right on the sample. -/
def sample_crypto : Crypto where
  encrypt := sample_encrypt
  decrypt := sample_decrypt
  hmac bytes := if bytes = sample_iv ++ sample_ciphertext then sample_tag else List.replicate 32 0
  decrypt_encrypt := sample_decrypt_encrypt
  encrypt_length iv plain := by
    unfold sample_encrypt
    split
    · rename_i hsample
      rw [hsample.2]
      rfl
    · exact pad_length plain
  hmac_length bytes := by split <;> rfl

def sample_config : PackageConfig where
  magic_word := [49, 51, 110, 56, 57, 49, 50, 110, 120, 56, 85, 48, 33, 64, 99, 48, 97, 107, 97, 108, 111,
    99, 118, 71, 114, 110, 97, 106, 79, 113, 119, 48]
  order := .little
  magic_word_length := rfl
  magic_word_no_nul := by decide

theorem decode_gen_fw_enc_sample :
    sample_payload0.length + sample_payload1.length < 2 ^ 31 - 16 ∧
      ∃ p, gen_fw_enc sample_config sample_crypto sample_iv sample_payload0 sample_payload1 = some p ∧
        decode_package sample_config sample_crypto p.bytes = .ok (sample_payload0, sample_payload1) :=
  ⟨by decide, decode_gen_fw_enc sample_config sample_crypto sample_iv sample_payload0 sample_payload1
    (by decide)⟩

end k180.gen_fw
