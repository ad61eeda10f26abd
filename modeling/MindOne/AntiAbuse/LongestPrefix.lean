import MindOne.AntiAbuse.AsnResolver

/-!
# The resolver finds the longest prefix

A map that is accepted holds canonical prefixes of lengths that fit their words, each only
once. On such prefixes no mask overflows, the mask test is the agreement of the leading
bits, and the longest match is unique.
-/

namespace MindOne.AntiAbuse

open AddressText CheckedArithmetic PrefixMatch
open MindOne.Stream (okOr okOr_eq_ok)

theorem prefixMask_eq {width prefixLen : Nat} (h : prefixLen ≤ width) :
    prefixMask width prefixLen = .ok (mask width prefixLen) := by
  rw [prefixMask]
  split
  · next hzero => rw [hzero, mask_zero]
  · rw [rejectIf_of_not _ (by omega), rejectIf_of_not _ (by omega)]
    rfl

namespace AsnPrefix

/-- The leading bits of the address are those of the network. -/
def Covers : AsnPrefix → IpAddr → Prop
  | .v4 network prefixLen _, .v4 address => Agree prefixLen address network
  | .v6 network prefixLen _, .v6 address => Agree prefixLen address network
  | _, _ => False

instance (entry : AsnPrefix) (address : IpAddr) : Decidable (entry.Covers address) :=
  match entry, address with
  | .v4 network prefixLen _, .v4 address =>
      inferInstanceAs (Decidable (Agree prefixLen address network))
  | .v6 network prefixLen _, .v6 address =>
      inferInstanceAs (Decidable (Agree prefixLen address network))
  | .v4 .., .v6 _ => .isFalse id
  | .v6 .., .v4 _ => .isFalse id

/-- The length fits the word, and the network has no bits behind it. -/
def Canonical : AsnPrefix → Prop
  | .v4 network prefixLen _ => prefixLen ≤ 32 ∧ network &&& mask 32 prefixLen = network
  | .v6 network prefixLen _ => prefixLen ≤ 128 ∧ network &&& mask 128 prefixLen = network

/-- A prefix that covers the address, and no longer one does. -/
def LongestMatch (entry : AsnPrefix) (entries : List AsnPrefix) (address : IpAddr) : Prop :=
  entry ∈ entries ∧ entry.Covers address ∧
    ∀ other ∈ entries, other.Covers address → other.prefixLen ≤ entry.prefixLen

theorem fromCidr_ok {value : String} {asn : UInt32} {entry : AsnPrefix}
    (h : fromCidr value asn = .ok entry) : entry.Canonical ∧ entry.asn = asn := by
  simp only [fromCidr, bind_eq_ok] at h
  obtain ⟨⟨text, suffix⟩, -, address, -, prefixLen, -, h⟩ := h
  cases address with
  | v4 address =>
      simp only [bind_eq_ok, rejectIf_eq_ok] at h
      obtain ⟨_, hlen, bits, hbits, _, hcanonical, hentry⟩ := h
      cases hentry
      rw [v4Mask, prefixMask_eq (Nat.not_lt.mp hlen)] at hbits
      cases hbits
      exact ⟨⟨Nat.not_lt.mp hlen, not_not.mp hcanonical⟩, rfl⟩
  | v6 address =>
      simp only [bind_eq_ok, rejectIf_eq_ok] at h
      obtain ⟨_, hlen, bits, hbits, _, hcanonical, hentry⟩ := h
      cases hentry
      rw [v6Mask, prefixMask_eq (Nat.not_lt.mp hlen)] at hbits
      cases hbits
      exact ⟨⟨Nat.not_lt.mp hlen, not_not.mp hcanonical⟩, rfl⟩

theorem okOr_ne_overflow {α : Type} {error : AsnMapError} {found : Option α} :
    okOr (AsnFailure.refused error) found ≠ .error .overflow := by
  cases found <;> simp [okOr]

/-- The length is checked before the mask is made. -/
theorem fromCidr_ne_overflow (value : String) (asn : UInt32) :
    fromCidr value asn ≠ .error .overflow := by
  refine bind_ne_error okOr_ne_overflow fun parts _ => bind_ne_error okOr_ne_overflow
    fun address _ => bind_ne_error okOr_ne_overflow fun prefixLen _ => ?_
  cases address with
  | v4 address =>
      refine bind_ne_error (rejectIf_ne_error nofun) fun _ hlen => ?_
      rw [v4Mask, prefixMask_eq (Nat.not_lt.mp (rejectIf_eq_ok.mp hlen))]
      exact bind_ne_error nofun fun _ _ =>
        bind_ne_error (rejectIf_ne_error nofun) fun _ _ => nofun
  | v6 address =>
      refine bind_ne_error (rejectIf_ne_error nofun) fun _ hlen => ?_
      rw [v6Mask, prefixMask_eq (Nat.not_lt.mp (rejectIf_eq_ok.mp hlen))]
      exact bind_ne_error nofun fun _ _ =>
        bind_ne_error (rejectIf_ne_error nofun) fun _ _ => nofun

theorem contains_eq {entry : AsnPrefix} (h : entry.Canonical) (address : IpAddr) :
    entry.contains address = .ok (decide (entry.Covers address)) := by
  cases entry with
  | v4 network prefixLen asn =>
      cases address with
      | v4 address =>
          rw [contains, v4Mask, prefixMask_eq h.1]
          exact congrArg _ (decide_eq_decide.mpr (and_mask_eq_iff h.1 h.2))
      | v6 address => rfl
  | v6 network prefixLen asn =>
      cases address with
      | v4 address => rfl
      | v6 address =>
          rw [contains, v6Mask, prefixMask_eq h.1]
          exact congrArg _ (decide_eq_decide.mpr (and_mask_eq_iff h.1 h.2))

/-- Two prefixes of one length that cover an address are the same. -/
theorem identity_eq {entry other : AsnPrefix} {address : IpAddr} (hentry : entry.Canonical)
    (hother : other.Canonical) (hcovers : entry.Covers address) (hcovers' : other.Covers address)
    (hlen : entry.prefixLen = other.prefixLen) : entry.identity = other.identity := by
  cases entry with
  | v4 network len asn =>
      cases address with
      | v6 address => exact hcovers.elim
      | v4 address =>
          cases other with
          | v6 network' len' asn' => exact hcovers'.elim
          | v4 network' len' asn' =>
              obtain rfl : len = len' := hlen
              rw [identity, identity, eq_of_agree hentry.1 hentry.2 hother.2 hcovers hcovers']
  | v6 network len asn =>
      cases address with
      | v4 address => exact hcovers.elim
      | v6 address =>
          cases other with
          | v4 network' len' asn' => exact hcovers'.elim
          | v6 network' len' asn' =>
              obtain rfl : len = len' := hlen
              rw [identity, identity, eq_of_agree hentry.1 hentry.2 hother.2 hcovers hcovers']

end AsnPrefix

theorem findAsn_eq {entries : List AsnPrefix} (h : ∀ entry ∈ entries, entry.Canonical)
    (address : IpAddr) :
    findAsn entries address =
      .ok ((entries.find? fun entry => entry.Covers address).map AsnPrefix.asn) := by
  induction entries with
  | nil => rfl
  | cons entry rest ih =>
      rw [findAsn, AsnPrefix.contains_eq (h entry List.mem_cons_self), List.find?_cons]
      by_cases hcovers : entry.Covers address
      · simp [hcovers, bind, Except.bind, pure, Except.pure]
      · simp [hcovers, bind, Except.bind, ih fun other hother => h other (.tail _ hother)]

/-! ## What the loader accepts -/

/-- The prefixes of the entries of a document. -/
def Parsed (entries : List AsnMapEntry) (prefixes : List AsnPrefix) : Prop :=
  List.Forall₂ (fun entry found => AsnPrefix.fromCidr entry.cidr entry.asn = .ok found)
    entries prefixes

/-- Numbers that may be assigned, prefixes that can be read, and none of them twice. -/
structure Accepted (document : AsnMapDocument) (prefixes : List AsnPrefix) : Prop where
  version : document.version = 1
  nonempty : document.entries ≠ []
  bounded : document.entries.length ≤ maxAsnMapEntries
  assignable : ∀ entry ∈ document.entries, ¬(entry.asn = 0 ∨ entry.asn = 4294967295)
  parsed : Parsed document.entries prefixes
  nodup : (prefixes.map AsnPrefix.identity).Nodup

theorem insert_eq_ok {loaded next : AsnEntries} {entry : AsnMapEntry} :
    loaded.insert entry = .ok next ↔ ¬(entry.asn = 0 ∨ entry.asn = 4294967295) ∧
      ∃ found, AsnPrefix.fromCidr entry.cidr entry.asn = .ok found ∧
        found.identity ∉ loaded.seen ∧
        next = ⟨found.identity :: loaded.seen, loaded.entries ++ [found]⟩ := by
  simp only [AsnEntries.insert, bind_eq_ok, rejectIf_eq_ok]
  constructor
  · rintro ⟨_, hasn, found, hfound, _, hseen, hnext⟩
    cases hnext
    exact ⟨hasn, found, hfound, hseen, rfl⟩
  · rintro ⟨hasn, found, hfound, hseen, rfl⟩
    exact ⟨(), hasn, found, hfound, (), hseen, rfl⟩

/-- The loop over the entries. -/
theorem foldlM_insert_eq_ok {entries : List AsnMapEntry} {loaded final : AsnEntries} :
    entries.foldlM AsnEntries.insert loaded = .ok final ↔
      (∀ entry ∈ entries, ¬(entry.asn = 0 ∨ entry.asn = 4294967295)) ∧
      ∃ prefixes, Parsed entries prefixes ∧ (prefixes.map AsnPrefix.identity).Nodup ∧
        (∀ found ∈ prefixes, found.identity ∉ loaded.seen) ∧
        final = ⟨(prefixes.map AsnPrefix.identity).reverse ++ loaded.seen,
          loaded.entries ++ prefixes⟩ := by
  induction entries generalizing loaded with
  | nil =>
      simp only [List.foldlM_nil, pure, Except.pure, Except.ok.injEq, Parsed]
      constructor
      · rintro rfl
        exact ⟨by simp, [], .nil, by simp, by simp, by simp⟩
      · rintro ⟨-, prefixes, hparsed, -, -, rfl⟩
        cases hparsed
        simp
  | cons entry rest ih =>
      simp only [List.foldlM_cons, bind_eq_ok, insert_eq_ok, ih, List.forall_mem_cons]
      constructor
      · rintro ⟨next, ⟨hasn, found, hfound, hseen, rfl⟩, hrest, prefixes, hparsed, hnodup, hnew,
          rfl⟩
        refine ⟨⟨hasn, hrest⟩, found :: prefixes, .cons hfound hparsed, ?_, ?_, by simp⟩
        · rw [List.map_cons, List.nodup_cons]
          refine ⟨fun hmem => ?_, hnodup⟩
          obtain ⟨other, hother, heq⟩ := List.mem_map.mp hmem
          exact hnew other hother (heq ▸ List.mem_cons_self)
        · rw [List.forall_mem_cons]
          exact ⟨hseen, fun other hother hmem => hnew other hother (.tail _ hmem)⟩
      · rintro ⟨⟨hasn, hrest⟩, prefixes, hparsed, hnodup, hnew, rfl⟩
        cases hparsed with
        | @cons _ found _ prefixes hfound hparsed =>
            rw [List.map_cons, List.nodup_cons] at hnodup
            rw [List.forall_mem_cons] at hnew
            refine ⟨_, ⟨hasn, found, hfound, hnew.1, rfl⟩, hrest, prefixes, hparsed, hnodup.2, ?_,
              by simp⟩
            intro other hother hmem
            rcases List.mem_cons.mp hmem with heq | hmem
            · exact hnodup.1 (heq ▸ List.mem_map_of_mem hother)
            · exact hnew.2 other hother hmem

namespace LocalAsnResolver
variable {fromSlice : List UInt8 → Except String AsnMapDocument}

theorem fromJson_eq_ok {bytes : List UInt8} {resolver : LocalAsnResolver} :
    fromJson fromSlice bytes = .ok resolver ↔ ∃ document prefixes,
      fromSlice bytes = .ok document ∧ Accepted document prefixes ∧
        resolver = ⟨sortByLength prefixes⟩ := by
  simp only [fromJson, bind_eq_ok, rejectIf_eq_ok, foldlM_insert_eq_ok]
  constructor
  · rintro ⟨document, hdocument, _, hversion, _, hcount, loaded, ⟨hassignable, prefixes, hparsed,
      hnodup, -, rfl⟩, hresolver⟩
    cases hresolver
    refine ⟨document, prefixes, ?_, ⟨not_not.mp hversion, fun hnil => hcount (.inl hnil), ?_,
      hassignable, hparsed, hnodup⟩, rfl⟩
    · cases hslice : fromSlice bytes with
      | error problem =>
          rw [hslice] at hdocument
          cases hdocument
      | ok found =>
          rw [hslice] at hdocument
          cases hdocument
          rfl
    · exact Nat.not_lt.mp fun hlt => hcount (.inr hlt)
  · rintro ⟨document, prefixes, hslice, h, rfl⟩
    refine ⟨document, by rw [hslice]; rfl, (), not_not.mpr h.version, (), ?_, _,
      ⟨h.assignable, prefixes, h.parsed, h.nodup, by simp, rfl⟩, rfl⟩
    rintro (hnil | hlt)
    · exact h.nonempty hnil
    · exact absurd h.bounded (Nat.not_le.mpr hlt)

theorem fromFile_ok {metadata : Except String AsnMapFile} {resolver : LocalAsnResolver}
    (h : fromFile fromSlice metadata = .ok resolver) :
    ∃ file bytes, metadata = .ok file ∧ file.bytes = .ok bytes ∧
      fromJson fromSlice bytes = .ok resolver := by
  simp only [fromFile, bind_eq_ok, rejectIf_eq_ok] at h
  obtain ⟨file, hfile, _, -, _, -, _, -, bytes, hbytes, _, -, h⟩ := h
  refine ⟨file, bytes, ?_, ?_, h⟩
  · cases metadata with
    | error problem => cases hfile
    | ok found =>
        cases hfile
        rfl
  · cases hfound : file.bytes with
    | error problem =>
        rw [hfound] at hbytes
        cases hbytes
    | ok found =>
        rw [hfound] at hbytes
        cases hbytes
        rfl

theorem mapError_ne_overflow {α : Type} {wrap : String → AsnMapError} {x : Except String α} :
    x.mapError (fun problem => AsnFailure.refused (wrap problem)) ≠ .error .overflow := by
  cases x <;> simp [Except.mapError]

theorem fromJson_ne_overflow (bytes : List UInt8) :
    fromJson fromSlice bytes ≠ .error .overflow := by
  refine bind_ne_error mapError_ne_overflow fun document _ =>
    bind_ne_error (rejectIf_ne_error nofun) fun _ _ =>
    bind_ne_error (rejectIf_ne_error nofun) fun _ _ =>
    bind_ne_error (foldlM_ne_error (fun loaded entry => ?_) _ _) fun _ _ => nofun
  exact bind_ne_error (rejectIf_ne_error nofun) fun _ _ =>
    bind_ne_error (AsnPrefix.fromCidr_ne_overflow _ _) fun _ _ =>
    bind_ne_error (rejectIf_ne_error nofun) fun _ _ => nofun

theorem fromFile_ne_overflow (metadata : Except String AsnMapFile) :
    fromFile fromSlice metadata ≠ .error .overflow :=
  bind_ne_error mapError_ne_overflow fun _ _ => bind_ne_error (rejectIf_ne_error nofun) fun _ _ =>
    bind_ne_error (rejectIf_ne_error nofun) fun _ _ =>
    bind_ne_error (rejectIf_ne_error nofun) fun _ _ => bind_ne_error mapError_ne_overflow fun _ _ =>
    bind_ne_error (rejectIf_ne_error nofun) fun _ _ => fromJson_ne_overflow _

end LocalAsnResolver

/-! ## The longest match -/

def AsnPrefix.isV6 : AsnPrefix → Bool
  | .v4 .. => false
  | .v6 .. => true

theorem sortByLength_perm (prefixes : List AsnPrefix) : (sortByLength prefixes).Perm prefixes :=
  List.perm_insertionSort _ _

theorem sortByLength_sorted (prefixes : List AsnPrefix) :
    (sortByLength prefixes).Pairwise fun a b => b.prefixLen ≤ a.prefixLen := by
  have : Std.Total fun a b : AsnPrefix => b.prefixLen ≤ a.prefixLen :=
    ⟨fun a b => Nat.le_total b.prefixLen a.prefixLen⟩
  have : IsTrans AsnPrefix fun a b => b.prefixLen ≤ a.prefixLen :=
    ⟨fun _ _ _ hab hbc => hbc.trans hab⟩
  exact List.pairwise_insertionSort _ prefixes

theorem Parsed.canonical {entries : List AsnMapEntry} {prefixes : List AsnPrefix}
    (h : Parsed entries prefixes) : ∀ found ∈ prefixes, found.Canonical := by
  induction h with
  | nil => exact nofun
  | cons hfound _ ih => exact List.forall_mem_cons.mpr ⟨(AsnPrefix.fromCidr_ok hfound).1, ih⟩

/-- What an address resolves to. -/
def Resolves (prefixes : List AsnPrefix) (address : IpAddr) (found : Option UInt32) : Prop :=
  (∀ asn, found = some asn ↔ ∃ entry : AsnPrefix, entry.LongestMatch prefixes address ∧
    entry.asn = asn) ∧
  (found = none ↔ ∀ entry ∈ prefixes, ¬entry.Covers address)

namespace Accepted
variable {document : AsnMapDocument} {prefixes : List AsnPrefix}

theorem sorted_canonical (h : Accepted document prefixes) :
    ∀ found ∈ sortByLength prefixes, found.Canonical := fun found hfound =>
  h.parsed.canonical found ((sortByLength_perm prefixes).mem_iff.mp hfound)

theorem resolves (h : Accepted document prefixes) (address : IpAddr) :
    ∃ found, findAsn (sortByLength prefixes) address = .ok found ∧
      Resolves prefixes address found := by
  refine ⟨_, findAsn_eq h.sorted_canonical address, ?_⟩
  have hmem : ∀ entry, entry ∈ sortByLength prefixes ↔ entry ∈ prefixes := fun entry =>
    (sortByLength_perm prefixes).mem_iff
  cases hfind : (sortByLength prefixes).find? fun entry => entry.Covers address with
  | none =>
      have hnone : ∀ entry ∈ prefixes, ¬entry.Covers address := fun entry hentry => by
        simpa using List.find?_eq_none.mp hfind entry ((hmem entry).mpr hentry)
      refine ⟨fun asn => ⟨nofun, ?_⟩, ⟨fun _ => hnone, fun _ => rfl⟩⟩
      rintro ⟨entry, ⟨hentry, hcovers, -⟩, -⟩
      exact absurd hcovers (hnone entry hentry)
  | some first =>
      obtain ⟨hcovers, hfirst, hlongest⟩ := find?_highest (sortByLength_sorted prefixes) hfind
      rw [hmem] at hfirst
      rw [decide_eq_true_eq] at hcovers
      have hmatch : first.LongestMatch prefixes address :=
        ⟨hfirst, hcovers, fun other hother hcovers' =>
          hlongest other ((hmem other).mpr hother) (decide_eq_true hcovers')⟩
      refine ⟨fun asn => ⟨?_, ?_⟩, ⟨nofun, fun hnone => absurd hcovers (hnone first hfirst)⟩⟩
      · rintro hasn
        exact ⟨first, hmatch, Option.some.inj hasn⟩
      · rintro ⟨entry, hentry, rfl⟩
        have hlen : entry.prefixLen = first.prefixLen :=
          Nat.le_antisymm (hmatch.2.2 entry hentry.1 hentry.2.1)
            (hentry.2.2 first hfirst hcovers)
        have hidentity := AsnPrefix.identity_eq (h.parsed.canonical entry hentry.1)
          (h.parsed.canonical first hfirst) hentry.2.1 hcovers hlen
        rw [List.inj_on_of_nodup_map h.nodup hentry.1 hfirst hidentity]
        rfl

/-- Entries in another order are accepted as well. -/
theorem perm (h : Accepted document prefixes) {other : AsnMapDocument}
    (hversion : other.version = document.version)
    (hperm : other.entries.Perm document.entries) :
    ∃ others, Accepted other others ∧ others.Perm prefixes := by
  obtain ⟨others, hparsed, hothers⟩ := List.perm_comp_forall₂ hperm h.parsed
  refine ⟨others, ⟨hversion.trans h.version, fun hnil => h.nonempty ?_, hperm.length_eq ▸ h.bounded,
    fun entry hentry => h.assignable entry (hperm.mem_iff.mp hentry), hparsed, ?_⟩, hothers⟩
  · rw [hnil] at hperm
    exact hperm.symm.eq_nil
  · exact (hothers.map AsnPrefix.identity).nodup_iff.mpr h.nodup

end Accepted

theorem Resolves.unique {prefixes others : List AsnPrefix} {address : IpAddr}
    {found found' : Option UInt32} (h : Resolves prefixes address found)
    (h' : Resolves others address found') (hperm : others.Perm prefixes) :
    found' = found := by
  refine Option.ext fun asn => ?_
  rw [h.1, h'.1]
  simp only [AsnPrefix.LongestMatch, hperm.mem_iff]

/-- Only IPv6 prefixes cover an IPv6 address, be it mapped from IPv4 or not. -/
theorem findAsn_filter_isV6 {entries : List AsnPrefix} (h : ∀ entry ∈ entries, entry.Canonical)
    (address : BitVec 128) :
    findAsn (entries.filter AsnPrefix.isV6) (.v6 address) = findAsn entries (.v6 address) := by
  rw [findAsn_eq h, findAsn_eq fun entry hentry => h entry (List.mem_of_mem_filter hentry),
    List.find?_filter]
  congr 3
  funext entry
  cases entry with
  | v4 network prefixLen asn =>
      exact (decide_eq_false (not_false : ¬(AsnPrefix.v4 network prefixLen asn).Covers
        (.v6 address))).symm
  | v6 network prefixLen asn => simp [AsnPrefix.isV6]

/-- Every map that is accepted resolves every address to its longest prefix, in whatever order
its entries stand, and no mask overflows. IPv4-mapped addresses are not converted: they resolve
among the IPv6 prefixes. -/
theorem lookup_longest_match {fromSlice : List UInt8 → Except String AsnMapDocument}
    {metadata : Except String AsnMapFile} {resolver : LocalAsnResolver}
    (h : LocalAsnResolver.fromFile fromSlice metadata = .ok resolver) :
    (∃ file bytes document prefixes, metadata = .ok file ∧ file.bytes = .ok bytes ∧
      fromSlice bytes = .ok document ∧ Parsed document.entries prefixes ∧
      (∀ address, ∃ found, resolver.lookup address = .ok found ∧
        Resolves prefixes address found) ∧
      ∀ {otherBytes : List UInt8} {other : AsnMapDocument}, fromSlice otherBytes = .ok other →
        other.version = document.version → other.entries.Perm document.entries →
        ∃ otherResolver, LocalAsnResolver.fromJson fromSlice otherBytes = .ok otherResolver ∧
          ∀ address, otherResolver.lookup address = resolver.lookup address) ∧
    (∀ address, resolver.lookup (.v6 (toIpv6Mapped address)) =
      findAsn (resolver.entries.filter AsnPrefix.isV6) (.v6 (toIpv6Mapped address))) ∧
    (∀ prefixLen ≤ 32, ∃ bits, v4Mask prefixLen = .ok bits) ∧
    (∀ prefixLen ≤ 128, ∃ bits, v6Mask prefixLen = .ok bits) ∧
    ∀ metadata, LocalAsnResolver.fromFile fromSlice metadata ≠ .error .overflow := by
  obtain ⟨file, bytes, hfile, hbytes, hjson⟩ := LocalAsnResolver.fromFile_ok h
  obtain ⟨document, prefixes, hslice, haccepted, rfl⟩ := LocalAsnResolver.fromJson_eq_ok.mp hjson
  refine ⟨⟨file, bytes, document, prefixes, hfile, hbytes, hslice, haccepted.parsed,
    haccepted.resolves, ?_⟩, fun address => ?_, fun prefixLen hlen => ⟨_, prefixMask_eq hlen⟩,
    fun prefixLen hlen => ⟨_, prefixMask_eq hlen⟩, LocalAsnResolver.fromFile_ne_overflow⟩
  · intro otherBytes other hother hversion hperm
    obtain ⟨others, hothers, hprefixes⟩ := haccepted.perm hversion hperm
    refine ⟨_, LocalAsnResolver.fromJson_eq_ok.mpr ⟨other, others, hother, hothers, rfl⟩,
      fun address => ?_⟩
    obtain ⟨found, hfound, hresolves⟩ := haccepted.resolves address
    obtain ⟨found', hfound', hresolves'⟩ := hothers.resolves address
    rw [LocalAsnResolver.lookup, LocalAsnResolver.lookup, hfound, hfound',
      hresolves.unique hresolves' hprefixes]
  · exact (findAsn_filter_isV6 haccepted.sorted_canonical _).symm

section Sample

/-- Stands for the parser of the file. -/
def sampleDocument (bytes : List UInt8) : Except String AsnMapDocument :=
  if bytes = [1] then
    .ok ⟨1, [⟨"203.0.113.0/24", 64500⟩, ⟨"203.0.113.128/25", 64501⟩, ⟨"::/0", 64502⟩]⟩
  else .error "EOF while parsing a value"

def sampleFile : AsnMapFile := ⟨false, true, 0o644, 1, .ok [1]⟩

def sampleAddresses : List IpAddr :=
  [.v4 0xcb007107#32, .v4 0xcb0071c8#32, .v4 0x01010101#32, .v6 (toIpv6Mapped 0xcb0071c8#32)]

theorem lookup_longest_match_sample : ∃ resolver : LocalAsnResolver,
    LocalAsnResolver.fromFile sampleDocument (.ok sampleFile) = .ok resolver ∧
    (sampleAddresses.map fun address => (resolver.lookup address).toOption) =
      [some (some 64500), some (some 64501), some none, some (some 64502)] ∧
    resolver.lookup (.v6 (toIpv6Mapped 0xcb0071c8#32)) =
      findAsn (resolver.entries.filter AsnPrefix.isV6) (.v6 (toIpv6Mapped 0xcb0071c8#32)) := by
  have hlookups : ((LocalAsnResolver.fromFile sampleDocument (.ok sampleFile)).toOption.map
      fun resolver => sampleAddresses.map fun address => (resolver.lookup address).toOption) =
      some [some (some 64500), some (some 64501), some none, some (some 64502)] := by
    decide +kernel
  cases hload : LocalAsnResolver.fromFile sampleDocument (.ok sampleFile) with
  | error problem =>
      rw [hload] at hlookups
      cases hlookups
  | ok resolver =>
      rw [hload] at hlookups
      exact ⟨resolver, rfl, Option.some.inj hlookups, (lookup_longest_match hload).2.1 _⟩

end Sample

end MindOne.AntiAbuse
