import Mxfs.ReadBack

/-!
# Mxfs.Config

The configuration page: the `config` command of the formatter (`format.cc` of
the parent) builds it in its command buffer and programs it to block 0 page 0,
and the child reads it back as `LAYER_CONFIG`.

The parent has its own copy of `compress_t`, with the same layout.  It stores
the length in `ant.length`, nine bits of the union, where the child reads
`tmp.base`, sixteen bits of it.  `config_roundtrip_iff` says which strings
come back.
-/

namespace Mxfs

open Lib

/-! ## the formatter -/

/-- `sizeof(cmd)`: a page and its spare area. -/
def cmdSize : Nat := 2112

/-- The test before the page is built. -/
def acceptsConfig (config : List UInt8) : Bool :=
  !config.isEmpty && config.length < cmdSize - 4

/-- The header of a configuration, over the zeroed buffer. -/
def configHeader (config : List UInt8) : Compress where
  magic := magic
  time := 0
  comp := 0
  type := layerConfig
  step := 0
  msec := 0
  union := Compress.antUnion config.length

/-- The buffer with the page in it; `none` if the string is copied past its end. -/
def configCmd (config : List UInt8) : Option (List UInt8) :=
  let cmd := patch (List.replicate cmdSize 0) 0 (configHeader config).bytes
  let n := min config.length (cmdSize - 4)
  if cmdSize < headerSize + n then none else some (patch cmd headerSize (config.take n))

/-- The command: the page without the spare area goes to block 0 page 0. -/
def formatConfig (M : Medium) (f : Flash) (config : List UInt8) : Option Flash :=
  if acceptsConfig config then
    (configCmd config).map fun cmd =>
      f.setPage 0 0 (M.program (f 0 0) (cmd.take (cmdSize - 64)))
  else some f

/-- The page is built within the buffer, and the child reads the string back. -/
def ConfigRoundTrips (M : Medium) (f : Flash) (config : List UInt8) : Prop :=
  ∃ f', formatConfig M f config = some f' ∧
    ∀ (d : Logged Flash) (bufferlen : UInt16), d.dev = f' → config.length ≤ bufferlen.toNat →
      (mxfsRead (pageArray M).logged d (UInt8.ofNat layerConfig) bufferlen 0 0).1 =
        some ((config.length : Int), config)

/-! ## the page -/

/-- A string that fits stands in the buffer behind its header. -/
theorem configCmd_of_le {config : List UInt8} (h : config.length ≤ 2096) :
    configCmd config = some ((configHeader config).bytes ++ config ++
      List.replicate (2096 - config.length) 0) := by
  have hmin : min config.length (cmdSize - 4) = config.length := by unfold cmdSize; omega
  have hheader : patch (List.replicate cmdSize (0 : UInt8)) 0 (configHeader config).bytes =
      (configHeader config).bytes ++ List.replicate 2096 0 := by
    have hrest : cmdSize - (0 + headerSize) = 2096 := rfl
    rw [patch, List.take_zero, List.nil_append, Compress.length_bytes, List.drop_replicate, hrest]
  rw [configCmd, hmin, hheader, if_neg (by unfold cmdSize headerSize; omega), List.take_length,
    patch, ← List.drop_drop, take_append_of_length (Compress.length_bytes _),
    drop_append_of_length (Compress.length_bytes _), List.drop_replicate]

/-- A longer one is copied past the end. -/
theorem configCmd_of_gt {config : List UInt8} (h : 2096 < config.length)
    (hlt : config.length < 2108) : configCmd config = none := by
  have hmin : min config.length (cmdSize - 4) = config.length := by unfold cmdSize; omega
  rw [configCmd, hmin, if_pos (by unfold cmdSize headerSize; omega)]

/-- The walk over a page that starts with a json header copies what its length says. -/
theorem readLoop_json (cp : Compress) {rest : List UInt8} {bufferlen : Nat}
    (hmagic : cp.stored.magic = magic) (htype : cp.stored.type = layerConfig)
    (hlen : (cp.bytes ++ rest).length = pageSize)
    (hfits : min cp.stored.tmpBase bufferlen ≤ rest.length) :
    readLoop (cp.bytes ++ rest) layerConfig bufferlen pageSize 0 [] =
      some (rest.take (min cp.stored.tmpBase bufferlen)) := by
  have hcp : Compress.ofBytes (slice (cp.bytes ++ rest) 0 headerSize) = cp.stored := by
    rw [Compress.ofBytes_slice (Nat.le_refl _), List.drop_zero, Compress.ofBytes_append]
  have hstride : strideOf cp.stored = none := by rw [strideOf, htype]; rfl
  have hcopy : slice (cp.bytes ++ rest) (0 + headerSize) (min cp.stored.tmpBase bufferlen) =
      rest.take (min cp.stored.tmpBase bufferlen) := by
    rw [Nat.zero_add, slice, drop_append_of_length (Compress.length_bytes _)]
  have hroom : 0 + headerSize + 1 * min cp.stored.tmpBase bufferlen ≤
      (cp.bytes ++ rest).length := by
    rw [List.length_append, Compress.length_bytes]
    omega
  have hsize : pageSize = 2047 + 1 := rfl
  rw [hsize, readLoop]
  simp only [hcp, hstride, htype, hmagic, hlen, ne_eq, not_true_eq_false, if_false, if_true]
  rw [if_neg (by decide), if_neg (by decide), if_neg (by decide), if_neg (by decide),
    copyRecords_eq hroom, Nat.one_mul, hcopy]
  rfl

/-- The walk over a page that starts with a configuration copies what the length
field says. -/
theorem readLoop_config {config : List UInt8} {rest : List UInt8}
    (hlen : ((configHeader config).bytes ++ rest).length = pageSize) (bufferlen : Nat) :
    readLoop ((configHeader config).bytes ++ rest) layerConfig bufferlen pageSize 0 [] =
      some (rest.take (min (config.length % 512) bufferlen)) := by
  have hbase : (configHeader config).stored.tmpBase = config.length % 512 := by
    show field 0 16 (config.length % 512 % 4294967296) = _
    rw [field]; omega
  have hrest := hlen
  rw [List.length_append, Compress.length_bytes] at hrest
  unfold headerSize pageSize at hrest
  rw [readLoop_json _ rfl rfl hlen (by rw [hbase]; omega), hbase]

/-- The page after the command. -/
theorem formatConfig_of_le (M : Medium) {f : Flash} (hf : f 0 0 = Page.blank)
    {config : List UInt8} (h : acceptsConfig config = true) (hle : config.length ≤ 2096) :
    ∃ f', formatConfig M f config = some f' ∧ (f' 0 0).bytes = (configHeader config).bytes ++
      (config ++ List.replicate (2096 - config.length) 0).take 2032 := by
  have hlen : ((configHeader config).bytes ++
      (config ++ List.replicate (2096 - config.length) 0).take 2032).length = pageSize := by
    rw [List.length_append, Compress.length_bytes, List.length_take, List.length_append,
      List.length_replicate]
    unfold headerSize pageSize; omega
  have hsplit : cmdSize - 64 = headerSize + 2032 := rfl
  rw [formatConfig, if_pos h, configCmd_of_le hle]
  refine ⟨_, rfl, ?_⟩
  dsimp only
  rw [Flash.setPage_same, hf, List.append_assoc, hsplit,
    ← Compress.length_bytes (configHeader config), List.take_length_add_append,
    M.program_blank _ (Nat.le_of_eq hlen),
    Page.image_bytes (Nat.le_of_eq hlen), hlen, Nat.sub_self, List.replicate_zero, List.append_nil]

/-- The child's read of that page: as many bytes as the nine bits say. -/
theorem read_config (M : Medium) {f' : Flash} {config : List UInt8}
    (hpage : (f' 0 0).bytes = (configHeader config).bytes ++
      (config ++ List.replicate (2096 - config.length) 0).take 2032)
    {d : Logged Flash} (hd : d.dev = f') {bufferlen : UInt16} (hbuf : bufferlen ≠ 0) :
    (mxfsRead (pageArray M).logged d (UInt8.ofNat layerConfig) bufferlen 0 0).1 =
      some ((((((config ++ List.replicate (2096 - config.length) 0).take 2032).take
          (min (config.length % 512) bufferlen.toNat)).length : Nat) : Int),
        ((config ++ List.replicate (2096 - config.length) 0).take 2032).take
          (min (config.length % 512) bufferlen.toNat)) := by
  have hsize := (f' 0 0).size
  rw [mxfsRead_pageArray M d 0 0 _ hbuf, hd, hpage]
  rw [hpage] at hsize
  exact congrArg (Option.map fun out : List UInt8 => ((out.length : Int), out))
    (readLoop_config hsize bufferlen.toNat)

/-! ## the round trip -/

/-- A longer string comes back cut to its length modulo 512. -/
theorem not_roundtrips_of_gt (M : Medium) {f : Flash} (hf : f 0 0 = Page.blank)
    {config : List UInt8} (h : acceptsConfig config = true) (hgt : 511 < config.length)
    (hle : config.length ≤ 2096) : ¬ ConfigRoundTrips M f config := by
  obtain ⟨f', hf', hpage⟩ := formatConfig_of_le M hf h hle
  intro hround
  obtain ⟨g, hg, hback⟩ := hround
  rw [hf'] at hg
  cases hg
  have hfull := hback (Logged.start f') 65535 rfl (by
    show config.length ≤ 65535
    omega)
  rw [read_config M hpage rfl (by decide)] at hfull
  have hlen := congrArg List.length (Prod.mk.inj (Option.some.inj hfull)).2
  simp only [List.length_take] at hlen
  omega

/-- **A configuration comes back exactly if** its size fits the nine bits of the
length field. -/
theorem config_roundtrip_iff (M : Medium) {f : Flash} (hf : f 0 0 = Page.blank)
    {config : List UInt8} (h : acceptsConfig config = true) :
    ConfigRoundTrips M f config ↔ config.length ≤ 511 := by
  have haccept : config ≠ [] ∧ config.length < cmdSize - 4 := by
    rw [acceptsConfig, Bool.and_eq_true, decide_eq_true_iff] at h
    exact ⟨by simpa using h.1, h.2⟩
  obtain ⟨hne, hlt⟩ := haccept
  have hpos := List.length_pos_of_ne_nil hne
  unfold cmdSize at hlt
  by_cases hfits : config.length ≤ 2096
  · obtain ⟨f', hf', hpage⟩ := formatConfig_of_le M hf h hfits
    constructor
    · intro hround
      by_contra hgt
      exact not_roundtrips_of_gt M hf h (by omega) hfits hround
    · intro hle
      refine ⟨f', hf', fun d bufferlen hd hbuf => ?_⟩
      have hne : bufferlen ≠ 0 := by
        intro hz
        rw [hz] at hbuf
        exact absurd hbuf (Nat.not_le.2 hpos)
      have hcopy : ((config ++ List.replicate (2096 - config.length) 0).take 2032).take
          (min (config.length % 512) bufferlen.toNat) = config := by
        rw [List.take_take]
        exact take_append_of_length (by omega)
      rw [read_config M hpage hd hne, hcopy]
  · refine iff_of_false ?_ (by omega)
    rw [ConfigRoundTrips, formatConfig, if_pos h, configCmd_of_gt (by omega) (by omega)]
    intro hex
    obtain ⟨_, hnone, _⟩ := hex
    cases hnone

/-- A short string. -/
theorem config_roundtrip_short :
    ConfigRoundTrips (nandMedium 0xFF) Flash.erased (List.replicate 100 0x7b) :=
  (config_roundtrip_iff (nandMedium 0xFF) rfl (by decide)).2 (by decide)

/-- 600 bytes are accepted, and 88 of them come back. -/
theorem config_truncated :
    acceptsConfig (List.replicate 600 0x7b) = true ∧
      ¬ ConfigRoundTrips (nandMedium 0xFF) Flash.erased (List.replicate 600 0x7b) := by
  have hlen : (List.replicate 600 (0x7b : UInt8)).length = 600 := List.length_replicate
  have haccept : acceptsConfig (List.replicate 600 0x7b) = true := by
    rw [acceptsConfig, hlen]; rfl
  exact ⟨haccept, not_roundtrips_of_gt (nandMedium 0xFF) rfl haccept (by omega) (by omega)⟩

end Mxfs
