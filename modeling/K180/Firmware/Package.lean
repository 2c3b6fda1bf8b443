import K180.Checked.Basic
import K180.Firmware.Bytes
import K180.Libc.Math
import K180.Libc.String

open byte_format checked libc

namespace k180.gen_fw

/-- AES-256-CBC with padding under `KEY`, and HMAC-SHA256 under `HMAC_KEY`. Decryption fails when it
finds no padding. -/
structure Crypto where
  encrypt : Bytes → Bytes → Bytes
  decrypt : Bytes → Bytes → Option Bytes
  hmac : Bytes → Bytes
  decrypt_encrypt : ∀ iv plain, decrypt iv (encrypt iv plain) = some plain
  encrypt_length : ∀ iv plain, (encrypt iv plain).length = 16 * (plain.length / 16 + 1)
  hmac_length : ∀ bytes, (hmac bytes).length = 32

/-- What both tools are compiled with, and the byte order of the machines they run on. -/
structure PackageConfig where
  magic_word : Bytes
  order : ByteOrder
  magic_word_length : magic_word.length = 32
  magic_word_no_nul : 0 ∉ magic_word

/-- The fields of a package file. -/
structure Package where
  magic : Bytes
  iv : Bytes
  len0 : Bytes
  len1 : Bytes
  ciphertext : Bytes
  tag : Bytes
  magic_length : magic.length = 32
  iv_length : iv.length = 16
  len0_length : len0.length = 4
  len1_length : len1.length = 4
  tag_length : tag.length = 32

/-- The file itself. -/
def Package.bytes (p : Package) : Bytes :=
  p.magic ++ (p.iv ++ (p.len0 ++ (p.len1 ++ (p.ciphertext ++ p.tag))))

theorem Package.bytes_length (p : Package) : p.bytes.length = p.ciphertext.length + 88 := by
  have hmagic := p.magic_length
  have hiv := p.iv_length
  have hlen0 := p.len0_length
  have hlen1 := p.len1_length
  have htag := p.tag_length
  simp only [bytes, List.length_append]
  omega

/-- The fields can be told apart in the file. -/
theorem Package.fields_eq_of_bytes_eq {p q : Package} (hbytes : p.bytes = q.bytes) :
    p.iv = q.iv ∧ p.ciphertext = q.ciphertext := by
  have hlength := congrArg List.length hbytes
  rw [p.bytes_length, q.bytes_length] at hlength
  obtain ⟨_, hrest⟩ := List.append_inj hbytes (p.magic_length.trans q.magic_length.symm)
  obtain ⟨hiv, hrest⟩ := List.append_inj hrest (p.iv_length.trans q.iv_length.symm)
  obtain ⟨_, hrest⟩ := List.append_inj hrest (p.len0_length.trans q.len0_length.symm)
  obtain ⟨_, hrest⟩ := List.append_inj hrest (p.len1_length.trans q.len1_length.symm)
  obtain ⟨hciphertext, _⟩ := List.append_inj hrest (by omega)
  exact ⟨hiv, hciphertext⟩

/-- `main` of `gen_fw_enc` on two files it could read, with the IV it drew. There is no result when
the two lengths do not fit the 32-bit sum, or their sum the `int` arguments of the cipher. -/
def gen_fw_enc (cfg : PackageConfig) (crypto : Crypto) (iv : {iv : Bytes // iv.length = 16})
    (input0 input1 : Bytes) : Option Package :=
  let len0 := input0.length % 2 ^ 32
  let len1 := input1.length % 2 ^ 32
  let total_len := (len0 + len1) % 2 ^ 32
  if total_len ≠ len0 + len1 || 2 ^ 31 - 16 ≤ total_len then none
  else
    let plain_all := input0.take len0 ++ input1.take len1
    let ciphertext := crypto.encrypt iv plain_all
    some {
      magic := cfg.magic_word
      iv := iv
      len0 := u32_bytes cfg.order len0
      len1 := u32_bytes cfg.order len1
      ciphertext := ciphertext
      tag := crypto.hmac (iv ++ ciphertext)
      magic_length := cfg.magic_word_length
      iv_length := iv.2
      len0_length := u32_bytes_length cfg.order len0
      len1_length := u32_bytes_length cfg.order len1
      tag_length := crypto.hmac_length _ }

/-- Why `gen_fw_dec` gets no further than reading the package: it exits, or it uses a size or a slice
outside its buffers, after which the language says nothing. -/
inductive DecodeStop where
  | exit (code : ℕ)
  | out_of_bounds
deriving DecidableEq

abbrev Decode := Except DecodeStop

def read_exact (size : ℕ) (rest : Bytes) : Decode (Bytes × Bytes) :=
  match take_exact size rest with
  | some parts => .ok parts
  | none => .error (.exit 2)

/-- `malloc(cipher_len)` and `read_exact` of as much, both with the length as a `size_t`. -/
def read_ciphertext (cipher_len : ℤ) (rest : Bytes) : Decode (Bytes × Bytes) :=
  if cipher_len < 0 then .error .out_of_bounds else read_exact cipher_len.toNat rest

/-- `EVP_DecryptUpdate` and `EVP_DecryptFinal_ex`; the length of the input is passed as an `int`. -/
def evp_decrypt (crypto : Crypto) (iv ciphertext : Bytes) (cipher_len : ℤ) : Decode Bytes :=
  match crypto.decrypt iv (ciphertext.take (int_cast cipher_len).toNat) with
  | some plaintext => .ok plaintext
  | none => .error (.exit 4)

/-- The two slices of the plaintext that are written out; `offset` is an `int`. -/
def split_payloads (plaintext : Bytes) (len0 len1 : ℕ) : Decode (Bytes × Bytes) :=
  let offset := int_cast (len0 % 2 ^ 32 : ℕ)
  match slice plaintext 0 len0, slice plaintext offset len1 with
  | some payload0, some payload1 => .ok (payload0, payload1)
  | _, _ => .error .out_of_bounds

/-- `main` of `gen_fw_dec` from the package file to the two payloads it stages. -/
def decode_package (cfg : PackageConfig) (crypto : Crypto) (file : Bytes) : Decode (Bytes × Bytes) := do
  let (magic, rest) ← read_exact 32 file
  stop_if (!strncmp_eq 32 magic cfg.magic_word) (.exit 2)
  let (iv, rest) ← read_exact 16 rest
  let (len0, rest) ← read_exact 4 rest
  let (len1, rest) ← read_exact 4 rest
  let total_len := (u32_value cfg.order len0 + u32_value cfg.order len1) % 2 ^ 32
  let cipher_len : ℤ := file.length - 32 - 16 - 2 * 4 - 32
  let (ciphertext, rest) ← read_ciphertext cipher_len rest
  let (hmac_file, _) ← read_exact 32 rest
  stop_if (hmac_file ≠ crypto.hmac (iv ++ ciphertext)) (.exit 3)
  let plaintext ← evp_decrypt crypto iv ciphertext cipher_len
  stop_if (plaintext.length % 2 ^ 32 ≠ total_len) (.exit 5)
  split_payloads plaintext (u32_value cfg.order len0) (u32_value cfg.order len1)

theorem read_exact_eq_ok_iff {size : ℕ} {rest : Bytes} {parts : Bytes × Bytes} :
    read_exact size rest = .ok parts ↔ rest = parts.1 ++ parts.2 ∧ parts.1.length = size := by
  rw [← take_exact_eq_some_iff, read_exact]
  cases take_exact size rest with
  | none => simp
  | some parts' => simp

theorem read_ciphertext_eq_ok_iff {cipher_len : ℤ} {rest : Bytes} {parts : Bytes × Bytes} :
    read_ciphertext cipher_len rest = .ok parts ↔
      rest = parts.1 ++ parts.2 ∧ (parts.1.length : ℤ) = cipher_len := by
  unfold read_ciphertext
  split
  · rename_i hneg
    constructor
    · intro h
      cases h
    · rintro ⟨_, hlen⟩
      omega
  · rename_i hpos
    rw [read_exact_eq_ok_iff]
    refine and_congr_right fun _ => ?_
    omega

theorem evp_decrypt_eq_ok_iff {crypto : Crypto} {iv ciphertext plaintext : Bytes} {cipher_len : ℤ} :
    evp_decrypt crypto iv ciphertext cipher_len = .ok plaintext ↔
      crypto.decrypt iv (ciphertext.take (int_cast cipher_len).toNat) = some plaintext := by
  rw [evp_decrypt]
  cases crypto.decrypt iv (ciphertext.take (int_cast cipher_len).toNat) with
  | none => simp
  | some plaintext' => simp

theorem split_payloads_eq_ok_iff {plaintext : Bytes} {len0 len1 : ℕ} {parts : Bytes × Bytes} :
    split_payloads plaintext len0 len1 = .ok parts ↔
      slice plaintext 0 len0 = some parts.1 ∧
        slice plaintext (int_cast (len0 % 2 ^ 32 : ℕ)) len1 = some parts.2 := by
  rw [split_payloads]
  obtain ⟨part0, part1⟩ := parts
  cases slice plaintext 0 len0 with
  | none => simp
  | some part0' =>
    cases slice plaintext (int_cast (len0 % 2 ^ 32 : ℕ)) len1 with
    | none => simp
    | some part1' => simp

/-- The checks made on the fields of a package before anything is written. -/
structure Verified (cfg : PackageConfig) (crypto : Crypto) (p : Package) (plaintext : Bytes) : Prop where
  magic : strncmp_eq 32 p.magic cfg.magic_word = true
  tag : p.tag = crypto.hmac (p.iv ++ p.ciphertext)
  decrypted :
    crypto.decrypt p.iv (p.ciphertext.take (int_cast p.ciphertext.length).toNat) = some plaintext
  length : plaintext.length % 2 ^ 32 =
    (u32_value cfg.order p.len0 + u32_value cfg.order p.len1) % 2 ^ 32

/-- A file is decoded exactly when it is the bytes of a package that passes the checks, and then into
the two slices of its plaintext that its length fields ask for. -/
theorem decode_package_eq_ok_iff {cfg : PackageConfig} {crypto : Crypto} {file : Bytes}
    {payloads : Bytes × Bytes} :
    decode_package cfg crypto file = .ok payloads ↔
      ∃ p plaintext, file = Package.bytes p ∧ Verified cfg crypto p plaintext ∧
        split_payloads plaintext (u32_value cfg.order p.len0) (u32_value cfg.order p.len1) =
          .ok payloads := by
  simp only [decode_package, bind_eq_ok_iff, stop_if_eq_ok_iff, exists_const, Prod.exists,
    read_exact_eq_ok_iff, read_ciphertext_eq_ok_iff, evp_decrypt_eq_ok_iff, Bool.not_eq_false',
    decide_eq_false_iff_not, ne_eq, not_not]
  constructor
  · rintro ⟨magic, _, ⟨rfl, hmagic⟩, hword, iv, _, ⟨rfl, hiv⟩, len0, _, ⟨rfl, hlen0⟩, len1, rest,
      ⟨rfl, hlen1⟩, ciphertext, _, ⟨hrest, hcipher⟩, tag, tail, ⟨rfl, htag⟩, hhmac, plaintext, hplain,
      hlength, hsplit⟩
    have hrestLength := congrArg List.length hrest
    simp only [List.length_append] at hrestLength hcipher
    obtain rfl : tail = [] := by
      rw [← List.length_eq_zero_iff]
      omega
    rw [List.append_nil] at hrest
    subst hrest
    have hsize : ((List.length (magic ++ (iv ++ (len0 ++ (len1 ++ (ciphertext ++ tag))))) : ℤ) - 32 -
        16 - 2 * 4 - 32) = ciphertext.length := by
      simp only [List.length_append]
      omega
    rw [hsize] at hplain
    exact ⟨⟨magic, iv, len0, len1, ciphertext, tag, hmagic, hiv, hlen0, hlen1, htag⟩, plaintext, rfl,
      ⟨hword, hhmac, hplain, hlength⟩, hsplit⟩
  · rintro ⟨p, plaintext, rfl, ⟨hword, hhmac, hplain, hlength⟩, hsplit⟩
    have hsize : ((p.bytes.length : ℤ) - 32 - 16 - 2 * 4 - 32) = p.ciphertext.length := by
      rw [p.bytes_length]
      omega
    rw [hsize]
    exact ⟨p.magic, _, ⟨rfl, p.magic_length⟩, hword, p.iv, _, ⟨rfl, p.iv_length⟩, p.len0, _,
      ⟨rfl, p.len0_length⟩, p.len1, _, ⟨rfl, p.len1_length⟩, p.ciphertext, _, ⟨rfl, rfl⟩, p.tag, [],
      ⟨(List.append_nil _).symm, p.tag_length⟩, hhmac, plaintext, hplain, hlength, hsplit⟩

/-- Length fields whose sum is right modulo `2 ^ 32`, and a first one inside the plaintext, split it
in two; otherwise a slice reaches past its end. -/
theorem split_payloads_of_sum {plaintext : Bytes} {len0 len1 : ℕ} (hsize : plaintext.length < 2 ^ 31)
    (hlen1 : len1 < 2 ^ 32) (hsum : plaintext.length % 2 ^ 32 = (len0 + len1) % 2 ^ 32)
    {payloads : Bytes × Bytes} (hsplit : split_payloads plaintext len0 len1 = .ok payloads) :
    payloads.1 ++ payloads.2 = plaintext ∧ payloads.1.length = len0 ∧ payloads.2.length = len1 := by
  rw [split_payloads_eq_ok_iff, slice_eq_some_iff, slice_eq_some_iff] at hsplit
  obtain ⟨⟨⟨_, hin⟩, hfirst⟩, _, hsecond⟩ := hsplit
  have hle : len0 ≤ plaintext.length := by omega
  have hoffset : int_cast (len0 % 2 ^ 32 : ℕ) = len0 := by
    rw [Nat.mod_eq_of_lt (by omega)]
    exact int_cast_of_bounds (by omega) (by omega)
  have htotal : len0 + len1 = plaintext.length := by omega
  rw [hoffset, Int.toNat_natCast] at hsecond
  rw [Int.toNat_zero, List.drop_zero] at hfirst
  have hall : (plaintext.drop len0).take len1 = plaintext.drop len0 := by
    apply List.take_of_length_le
    rw [List.length_drop]
    omega
  rw [hall] at hsecond
  rw [hfirst, hsecond]
  refine ⟨List.take_append_drop len0 plaintext, List.length_take_of_le hle, ?_⟩
  rw [List.length_drop]
  omega

/-- Splitting what was joined. -/
theorem split_payloads_append {payload0 payload1 : Bytes}
    (hsize : (payload0 ++ payload1).length < 2 ^ 31) :
    split_payloads (payload0 ++ payload1) payload0.length payload1.length = .ok (payload0, payload1) := by
  rw [List.length_append] at hsize
  have hoffset : int_cast (payload0.length % 2 ^ 32 : ℕ) = payload0.length := by
    rw [Nat.mod_eq_of_lt (by omega)]
    exact int_cast_of_bounds (by omega) (by omega)
  rw [split_payloads_eq_ok_iff, slice_eq_some_iff, slice_eq_some_iff, hoffset, List.length_append]
  refine ⟨⟨⟨by omega, by omega⟩, ?_⟩, ⟨by omega, by omega⟩, ?_⟩
  · rw [Int.toNat_zero, List.drop_zero, List.take_left]
  · rw [Int.toNat_natCast, List.drop_left, List.take_length]

end k180.gen_fw
