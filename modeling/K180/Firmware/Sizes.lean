import K180.Firmware.Authenticity

open byte_format checked libc

namespace k180.gen_fw

/-- What `main` of `gen_fw_dec` computes before it uses it: the length of the ciphertext, as a `long` or as the
`int` that the cipher takes, the sum of the two lengths, and the slices of the plaintext. -/
inductive Use where
  | cipher_len (n : ℤ)
  | total_len (n len0 len1 : ℕ)
  | slice (offset : ℤ) (before len total_plain_len : ℕ)
deriving DecidableEq

/-- The uses that follow a step that succeeds. -/
def after {α : Type} (x : Decode α) (next : α → List Use) : List Use :=
  match x with
  | .ok a => next a
  | .error _ => []

/-- The lengths and the slices of the payloads, once the lengths have passed their check; `offset` is an `int`. -/
def payload_uses (len0 len1 : ℕ) (plaintext : Bytes) : List Use :=
  [.total_len ((len0 + len1) % 2 ^ 32) len0 len1, .slice 0 0 len0 plaintext.length,
    .slice (int_cast (len0 % 2 ^ 32 : ℕ)) len0 len1 plaintext.length]

/-- What `main` uses on a file, in its order: the length in `malloc` and `read_exact`, in the input of the HMAC and as
the argument of `EVP_DecryptUpdate`, and at the end the lengths and slices of the payloads. -/
def decode_uses (cfg : PackageConfig) (crypto : Crypto) (file : Bytes) : List Use :=
  after (read_exact 32 file) fun (magic, rest) =>
  after (stop_if (!strncmp_eq 32 magic cfg.magic_word) (.exit 2)) fun _ =>
  after (read_exact 16 rest) fun (iv, rest) =>
  after (read_exact 4 rest) fun (len0, rest) =>
  after (read_exact 4 rest) fun (len1, rest) =>
    let len0 := u32_value cfg.order len0
    let len1 := u32_value cfg.order len1
    let total_len := (len0 + len1) % 2 ^ 32
    let cipher_len : ℤ := file.length - 32 - 16 - 2 * 4 - 32
    .cipher_len cipher_len :: after (read_ciphertext cipher_len rest) fun (ciphertext, rest) =>
  after (read_exact 32 rest) fun (hmac_file, _) =>
    .cipher_len cipher_len :: after (stop_if (hmac_file ≠ crypto.hmac (iv ++ ciphertext)) (.exit 3)) fun _ =>
    .cipher_len (int_cast cipher_len) :: after (evp_decrypt crypto iv ciphertext cipher_len) fun plaintext =>
  after (stop_if (plaintext.length % 2 ^ 32 ≠ total_len) (.exit 5)) fun _ =>
    payload_uses len0 len1 plaintext

/-- The length is that of the bytes between the header and the tag, the sum has not wrapped, and a slice begins where
the slices before it end and lies inside of the plaintext. -/
def UseOk (file : Bytes) : Use → Prop
  | .cipher_len n => 0 ≤ n ∧ n = file.length - 56 - 32
  | .total_len n len0 len1 => n = len0 + len1
  | .slice offset before len total_plain_len => offset = before ∧ before + len ≤ total_plain_len

def UsesOk (cfg : PackageConfig) (crypto : Crypto) (file : Bytes) : Prop :=
  ∀ use ∈ decode_uses cfg crypto file, UseOk file use

/-- A file whose header is read has room for the tag, one with the right tag has a ciphertext shorter than `2 ^ 31`
bytes, and one whose plaintext has the length of the header has lengths whose sum is below `2 ^ 32`. -/
structure SizesFit (cfg : PackageConfig) (crypto : Crypto) (file : Bytes) : Prop where
  room : 56 ≤ file.length → strncmp_eq 32 (file.take 32) cfg.magic_word = true → 88 ≤ file.length
  ciphertext : ∀ p : Package, file = p.bytes → strncmp_eq 32 p.magic cfg.magic_word = true →
    p.tag = crypto.hmac (p.iv ++ p.ciphertext) → p.ciphertext.length < 2 ^ 31
  sum : ∀ p : Package, file = p.bytes → strncmp_eq 32 p.magic cfg.magic_word = true →
    p.tag = crypto.hmac (p.iv ++ p.ciphertext) → ∀ plaintext, crypto.decrypt p.iv p.ciphertext = some plaintext →
      plaintext.length = (u32_value cfg.order p.len0 + u32_value cfg.order p.len1) % 2 ^ 32 →
      u32_value cfg.order p.len0 + u32_value cfg.order p.len1 < 2 ^ 32

/-- What comes out of the cipher is no longer than what goes in. -/
def Shortens (crypto : Crypto) : Prop :=
  ∀ iv ciphertext plaintext, crypto.decrypt iv ciphertext = some plaintext → plaintext.length ≤ ciphertext.length

theorem mem_after_iff {α : Type} {x : Decode α} {next : α → List Use} {use : Use} :
    use ∈ after x next ↔ ∃ a, x = .ok a ∧ use ∈ next a := by
  cases x with
  | error stop => simp [after]
  | ok a => simp [after]

variable {cfg : PackageConfig} {crypto : Crypto} {file : Bytes}

theorem after_ok {α : Type} (a : α) (next : α → List Use) : after (.ok a) next = next a := rfl

theorem after_stop_if (cond : Bool) (stop : DecodeStop) (next : Unit → List Use) :
    after (stop_if cond stop) next = if cond then [] else next () := by
  cases cond <;> rfl

theorem read_exact_append {size : ℕ} {front : Bytes} (back : Bytes) (hlen : front.length = size) :
    read_exact size (front ++ back) = .ok (front, back) :=
  read_exact_eq_ok_iff.mpr ⟨rfl, hlen⟩

theorem after_evp_decrypt {iv ciphertext : Bytes} {cipher_len : ℤ} {next : Bytes → List Use} {use : Use} :
    use ∈ after (evp_decrypt crypto iv ciphertext cipher_len) next ↔
      ∃ plaintext, crypto.decrypt iv (ciphertext.take (int_cast cipher_len).toNat) = some plaintext ∧
        use ∈ next plaintext := by
  simp only [mem_after_iff, evp_decrypt_eq_ok_iff]

/-- The uses on the file of a package. -/
theorem mem_decode_uses_package (cfg : PackageConfig) (crypto : Crypto) (p : Package) (use : Use) :
    use ∈ decode_uses cfg crypto p.bytes ↔ strncmp_eq 32 p.magic cfg.magic_word = true ∧
      (use = .cipher_len p.ciphertext.length ∨ p.tag = crypto.hmac (p.iv ++ p.ciphertext) ∧
        (use = .cipher_len (int_cast p.ciphertext.length) ∨
          ∃ plaintext, crypto.decrypt p.iv (p.ciphertext.take (int_cast p.ciphertext.length).toNat) = some plaintext ∧
            plaintext.length % 2 ^ 32 = (u32_value cfg.order p.len0 + u32_value cfg.order p.len1) % 2 ^ 32 ∧
            use ∈ payload_uses (u32_value cfg.order p.len0) (u32_value cfg.order p.len1) plaintext)) := by
  have hsize : ((p.bytes.length : ℤ) - 32 - 16 - 2 * 4 - 32) = p.ciphertext.length := by
    rw [p.bytes_length]
    omega
  have hciphertext : read_ciphertext p.ciphertext.length (p.ciphertext ++ p.tag) = .ok (p.ciphertext, p.tag) :=
    read_ciphertext_eq_ok_iff.mpr ⟨rfl, rfl⟩
  have htag : read_exact 32 p.tag = .ok (p.tag, []) :=
    read_exact_eq_ok_iff.mpr ⟨(List.append_nil _).symm, p.tag_length⟩
  rw [decode_uses, hsize, Package.bytes]
  simp only [read_exact_append _ p.magic_length, read_exact_append _ p.iv_length, read_exact_append _ p.len0_length,
    read_exact_append _ p.len1_length, hciphertext, htag, after_ok, after_stop_if]
  cases hmagic : strncmp_eq 32 p.magic cfg.magic_word with
  | false => simp
  | true =>
    by_cases hhmac : p.tag = crypto.hmac (p.iv ++ p.ciphertext)
    · have hcond : decide (p.tag ≠ crypto.hmac (p.iv ++ p.ciphertext)) = false := decide_eq_false (not_not.mpr hhmac)
      rw [hcond]
      simp only [Bool.not_true, Bool.false_eq_true, if_false, List.mem_cons, after_evp_decrypt, hhmac, true_and]
      rw [← or_assoc, or_self]
      refine or_congr_right (or_congr_right (exists_congr fun plaintext => and_congr_right fun _ => ?_))
      by_cases hlength : plaintext.length % 2 ^ 32 =
          (u32_value cfg.order p.len0 + u32_value cfg.order p.len1) % 2 ^ 32
      · rw [decide_eq_false (not_not.mpr hlength), if_neg Bool.false_ne_true]
        exact (and_iff_right hlength).symm
      · rw [decide_eq_true hlength, if_pos rfl]
        exact iff_of_false List.not_mem_nil fun h => hlength h.1
    · have hcond : decide (p.tag ≠ crypto.hmac (p.iv ++ p.ciphertext)) = true := decide_eq_true hhmac
      rw [hcond]
      simp [hhmac]

/-- The first bytes of a file, cut into the fields of the header. -/
theorem exists_header (hheader : 56 ≤ file.length) :
    ∃ magic iv len0 len1 rest : Bytes, file = magic ++ (iv ++ (len0 ++ (len1 ++ rest))) ∧ magic.length = 32 ∧
      iv.length = 16 ∧ len0.length = 4 ∧ len1.length = 4 ∧ magic = file.take 32 := by
  have hcut : ∀ (n : ℕ) (bytes : Bytes), n ≤ bytes.length → ∃ front back, bytes = front ++ back ∧ front.length = n :=
    fun n bytes hle => ⟨bytes.take n, bytes.drop n, (List.take_append_drop n bytes).symm, List.length_take_of_le hle⟩
  obtain ⟨magic, rest, rfl, hmagic⟩ := hcut 32 file (by omega)
  rw [List.length_append] at hheader
  obtain ⟨iv, rest, rfl, hiv⟩ := hcut 16 rest (by omega)
  rw [List.length_append] at hheader
  obtain ⟨len0, rest, rfl, hlen0⟩ := hcut 4 rest (by omega)
  rw [List.length_append] at hheader
  obtain ⟨len1, rest, rfl, hlen1⟩ := hcut 4 rest (by omega)
  exact ⟨magic, iv, len0, len1, rest, rfl, hmagic, hiv, hlen0, hlen1, (List.take_left' hmagic).symm⟩

/-- Bytes enough for a header and a tag are the file of a package. -/
theorem exists_package (hroom : 88 ≤ file.length) : ∃ p : Package, file = p.bytes := by
  obtain ⟨magic, iv, len0, len1, rest, hfile, hmagic, hiv, hlen0, hlen1, -⟩ :=
    exists_header (show 56 ≤ file.length by omega)
  have hlength := congrArg List.length hfile
  simp only [List.length_append] at hlength
  refine ⟨⟨magic, iv, len0, len1, rest.take (rest.length - 32), rest.drop (rest.length - 32), hmagic, hiv, hlen0, hlen1,
    ?_⟩, ?_⟩
  · rw [List.length_drop]
    omega
  · refine hfile.trans ?_
    rw [Package.bytes, List.take_append_drop]

/-- A file that is not read up to its ciphertext uses nothing. -/
theorem header_of_mem_decode_uses {use : Use} (huse : use ∈ decode_uses cfg crypto file) :
    56 ≤ file.length ∧ strncmp_eq 32 (file.take 32) cfg.magic_word = true := by
  simp only [decode_uses, mem_after_iff, Prod.exists, read_exact_eq_ok_iff, stop_if_eq_ok_iff,
    Bool.not_eq_false'] at huse
  obtain ⟨magic, rest, ⟨rfl, hmagic⟩, _, hword, iv, rest, ⟨rfl, hiv⟩, len0, rest, ⟨rfl, hlen0⟩, len1, rest,
    ⟨rfl, hlen1⟩, -⟩ := huse
  rw [List.take_left' hmagic]
  refine ⟨?_, hword⟩
  simp only [List.length_append]
  omega

/-- One that is, uses the length that its own length gives. -/
theorem cipher_len_mem_decode_uses (hheader : 56 ≤ file.length)
    (hword : strncmp_eq 32 (file.take 32) cfg.magic_word = true) :
    .cipher_len (file.length - 32 - 16 - 2 * 4 - 32) ∈ decode_uses cfg crypto file := by
  obtain ⟨magic, iv, len0, len1, rest, hfile, hmagic, hiv, hlen0, hlen1, htake⟩ := exists_header hheader
  rw [← htake] at hword
  simp only [decode_uses, mem_after_iff, Prod.exists, read_exact_eq_ok_iff, stop_if_eq_ok_iff, Bool.not_eq_false']
  exact ⟨magic, _, ⟨hfile, hmagic⟩, (), hword, iv, _, ⟨rfl, hiv⟩, len0, _, ⟨rfl, hlen0⟩, len1, _, ⟨rfl, hlen1⟩,
    List.mem_cons_self ..⟩

/-- The uses of the lengths and slices of the payloads are in order exactly when the sum of the lengths has not
wrapped. -/
theorem payload_uses_ok_iff {plaintext : Bytes} {len0 len1 : ℕ} (hsize : plaintext.length < 2 ^ 31)
    (hlen0 : len0 < 2 ^ 32) (hlen1 : len1 < 2 ^ 32) (hsum : plaintext.length % 2 ^ 32 = (len0 + len1) % 2 ^ 32) :
    (∀ use ∈ payload_uses len0 len1 plaintext, UseOk file use) ↔ len0 + len1 < 2 ^ 32 := by
  simp only [payload_uses, List.forall_mem_cons, UseOk, List.not_mem_nil, false_implies, implies_true, and_true]
  constructor
  · rintro ⟨htotal, -, -⟩
    omega
  · intro hlt
    have htotal : len0 + len1 = plaintext.length := by omega
    have hoffset : int_cast (len0 % 2 ^ 32 : ℕ) = len0 := by
      rw [Nat.mod_eq_of_lt hlen0]
      exact int_cast_of_bounds (by omega) (by omega)
    exact ⟨Nat.mod_eq_of_lt hlt, ⟨rfl, by omega⟩, hoffset, by omega⟩

/-- `gen_fw_dec` uses no size or slice outside of its range on a file exactly when the sizes of the file fit: what is
read has room for the tag, what has the right tag is short enough for the cipher's `int`, and the lengths of what
passes all checks have a sum that does not wrap. -/
theorem uses_ok_iff (cfg : PackageConfig) (crypto : Crypto) (hshortens : Shortens crypto) (file : Bytes) :
    UsesOk cfg crypto file ↔ SizesFit cfg crypto file := by
  constructor
  · intro hok
    have hroom : 56 ≤ file.length → strncmp_eq 32 (file.take 32) cfg.magic_word = true → 88 ≤ file.length := by
      intro hheader hword
      have huse : .cipher_len (file.length - 32 - 16 - 2 * 4 - 32) ∈ decode_uses cfg crypto file :=
        cipher_len_mem_decode_uses hheader hword
      obtain ⟨hpos, -⟩ := hok _ huse
      omega
    have hcipher : ∀ p : Package, file = p.bytes → strncmp_eq 32 p.magic cfg.magic_word = true →
        p.tag = crypto.hmac (p.iv ++ p.ciphertext) → p.ciphertext.length < 2 ^ 31 := by
      rintro p rfl hword htag
      obtain ⟨hpos, hlen⟩ := hok (.cipher_len (int_cast p.ciphertext.length))
        ((mem_decode_uses_package cfg crypto p _).mpr ⟨hword, .inr ⟨htag, .inl rfl⟩⟩)
      have hbounds := int_cast_bounds p.ciphertext.length
      rw [p.bytes_length] at hlen
      omega
    refine ⟨hroom, hcipher, ?_⟩
    rintro p rfl hword htag plaintext hplain hlength
    have hlt := hcipher p rfl hword htag
    have hcast : p.ciphertext.take (int_cast p.ciphertext.length).toNat = p.ciphertext := by
      rw [int_cast_of_bounds (by omega) (by omega), Int.toNat_natCast, List.take_length]
    have hshort := hshortens _ _ _ hplain
    have hsum : plaintext.length % 2 ^ 32 =
        (u32_value cfg.order p.len0 + u32_value cfg.order p.len1) % 2 ^ 32 := by omega
    refine (payload_uses_ok_iff (by omega) (u32_value_lt _ p.len0_length) (u32_value_lt _ p.len1_length) hsum).mp
      fun use huse => hok use ?_
    exact (mem_decode_uses_package cfg crypto p use).mpr
      ⟨hword, .inr ⟨htag, .inr ⟨plaintext, by rw [hcast]; exact hplain, hsum, huse⟩⟩⟩
  · intro hfit use huse
    obtain ⟨hheader, hword⟩ := header_of_mem_decode_uses huse
    obtain ⟨p, rfl⟩ := exists_package (hfit.room hheader hword)
    obtain ⟨hword, rfl | ⟨htag, hrest⟩⟩ := (mem_decode_uses_package cfg crypto p use).mp huse
    · refine ⟨Int.natCast_nonneg _, ?_⟩
      rw [p.bytes_length]
      omega
    have hlt := hfit.ciphertext p rfl hword htag
    have hcast : int_cast p.ciphertext.length = p.ciphertext.length := int_cast_of_bounds (by omega) (by omega)
    rw [hcast, Int.toNat_natCast, List.take_length] at hrest
    obtain rfl | ⟨plaintext, hplain, hlength, huse⟩ := hrest
    · refine ⟨Int.natCast_nonneg _, ?_⟩
      rw [p.bytes_length]
      omega
    have hshort := hshortens _ _ _ hplain
    have hsum := hfit.sum p rfl hword htag plaintext hplain (by omega)
    exact (payload_uses_ok_iff (by omega) (u32_value_lt _ p.len0_length) (u32_value_lt _ p.len1_length) hlength).mpr
      hsum use huse

theorem read_exact_ne_out_of_bounds (size : ℕ) (rest : Bytes) : read_exact size rest ≠ .error .out_of_bounds := by
  unfold read_exact
  split
  · exact nofun
  · exact nofun

theorem stop_if_ne_out_of_bounds (cond : Bool) (code : ℕ) :
    (stop_if cond (.exit code) : Decode Unit) ≠ .error .out_of_bounds := by
  cases cond <;> exact nofun

theorem evp_decrypt_ne_out_of_bounds (crypto : Crypto) (iv ciphertext : Bytes) (cipher_len : ℤ) :
    evp_decrypt crypto iv ciphertext cipher_len ≠ .error .out_of_bounds := by
  unfold evp_decrypt
  split
  · exact nofun
  · exact nofun

/-- A program whose uses are in order never leaves its buffers. -/
theorem decode_package_in_bounds (hok : UsesOk cfg crypto file) :
    decode_package cfg crypto file ≠ .error .out_of_bounds := by
  intro hstop
  simp only [decode_package, bind_eq_error_iff, read_exact_ne_out_of_bounds, stop_if_ne_out_of_bounds,
    evp_decrypt_ne_out_of_bounds, false_or] at hstop
  obtain ⟨⟨magic, rest₁⟩, hmagic, ⟨⟩, hword, ⟨iv, rest₂⟩, hiv, ⟨len0, rest₃⟩, hlen0, ⟨len1, rest₄⟩, hlen1,
    hrest⟩ := hstop
  obtain hneg | ⟨⟨ciphertext, rest₅⟩, hciphertext, ⟨tag, rest₆⟩, htag, ⟨⟩, hhmac, plaintext, hplain, ⟨⟩, hlength,
    hsplit⟩ := hrest
  · have huse : .cipher_len (file.length - 32 - 16 - 2 * 4 - 32) ∈ decode_uses cfg crypto file := by
      simp only [decode_uses, mem_after_iff]
      exact ⟨_, hmagic, _, hword, _, hiv, _, hlen0, _, hlen1, List.mem_cons_self ..⟩
    have hpos := (hok _ huse).1
    rw [read_ciphertext, if_neg (not_lt.mpr hpos)] at hneg
    exact read_exact_ne_out_of_bounds _ _ hneg
  · have huse : ∀ use ∈ payload_uses (u32_value cfg.order len0) (u32_value cfg.order len1) plaintext,
        UseOk file use := by
      intro use hmem
      refine hok use ?_
      simp only [decode_uses, mem_after_iff, List.mem_cons]
      exact ⟨_, hmagic, _, hword, _, hiv, _, hlen0, _, hlen1,
        .inr ⟨_, hciphertext, _, htag, .inr ⟨_, hhmac, .inr ⟨_, hplain, _, hlength, hmem⟩⟩⟩⟩
    simp only [payload_uses, List.forall_mem_cons, UseOk] at huse
    obtain ⟨-, ⟨-, hfirst⟩, ⟨hoffset, hsecond⟩, -⟩ := huse
    have hslices : split_payloads plaintext (u32_value cfg.order len0) (u32_value cfg.order len1) =
        .ok (_, _) := split_payloads_eq_ok_iff.mpr ⟨slice_eq_some_iff.mpr ⟨⟨by omega, by omega⟩, rfl⟩,
          slice_eq_some_iff.mpr ⟨⟨by omega, by omega⟩, rfl⟩⟩
    rw [hslices] at hsplit
    cases hsplit

theorem sample_shortens : Shortens sample_crypto := by
  intro iv ciphertext plaintext hplain
  change sample_decrypt iv ciphertext = some plaintext at hplain
  rw [sample_decrypt] at hplain
  split at hplain
  · rename_i hsample
    rw [← Option.some.inj hplain, hsample.2]
    decide
  · rw [unpad] at hplain
    split at hplain
    · rw [← Option.some.inj hplain]
      exact List.length_take_le' _ _
    · cases hplain

theorem uses_ok_iff_sample : Shortens sample_crypto ∧
    (UsesOk sample_config sample_crypto sample_release.package.bytes ↔
      SizesFit sample_config sample_crypto sample_release.package.bytes) :=
  ⟨sample_shortens, uses_ok_iff sample_config sample_crypto sample_shortens _⟩

/-- The sample release with lengths that wrap to the same sum: its tag does not cover them. -/
def sample_wrapped : Package :=
  { sample_release.package with
    len0 := [255, 255, 255, 255]
    len1 := [11, 0, 0, 0]
    len0_length := rfl
    len1_length := rfl }

theorem wrapped_lengths_read_outside : ¬ ∀ file, UsesOk sample_config sample_crypto file := by
  intro hclaim
  have huse : .slice 0 0 4294967295 10 ∈ decode_uses sample_config sample_crypto sample_wrapped.bytes := by
    decide +kernel
  exact absurd (hclaim sample_wrapped.bytes _ huse).2 (by decide)

end k180.gen_fw
