/-
Compressed streams as a program meets them: the compressor and the decompressor objects of `zlib`. A library: nothing here
is about payments.

The objects are a parameter (`Codec`), with the states of an implementation's own. `Codec.Reaches` is a decompressor with
what it was fed and what it has given out. What programs rely on is `Codec.Lossless`: a stream written in pieces is the
contents of those pieces, and a decompressor that is fed it gives these contents out, however it divides them into blocks.

- `Reaches.whole`: a call that takes its whole piece in; `Reaches.divided`: one that leaves a tail.
- `Lossless.fuel`: what is left to take in and to give out, which every call makes less.
-/
import Mathlib.Tactic

namespace Apar

/-- the compressor and decompressor objects of a format; `none` is the format's own error -/
structure Codec (C D : Type) where
  compressobj : C
  /-- `compressor.compress(data)` -/
  compress : C → List UInt8 → List UInt8 × C
  /-- `compressor.flush()` -/
  finish : C → List UInt8
  decompressobj : D
  /-- `decompressor.decompress(data, max_length)`; no limit is 0 -/
  decompress : D → List UInt8 → ℕ → Option (List UInt8 × D)
  /-- `decompressor.flush()` -/
  flush : D → Option (List UInt8 × D)
  unconsumedTail : D → List UInt8
  unusedData : D → List UInt8
  eof : D → Bool

namespace Codec

variable {C D : Type} (z : Codec C D)

/-- the stream that a compressor writes for these pieces -/
def stream : C → List (List UInt8) → List UInt8
  | c, [] => z.finish c
  | c, d :: ds => (z.compress c d).1 ++ stream (z.compress c d).2 ds

/-- a decompressor, what it was fed, and what it has given out -/
inductive Reaches : D → List UInt8 → List UInt8 → Prop
  | start : Reaches z.decompressobj [] []
  | decompress {d d' : D} {fed given piece used block : List UInt8} {limit : ℕ} :
      Reaches d fed given → z.decompress d piece limit = some (block, d') → piece = used ++ z.unconsumedTail d' →
        Reaches d' (fed ++ used) (given ++ block)

/-- what programs rely on: `contents` is what a complete stream decodes to -/
structure Lossless (contents : List UInt8 → Option (List UInt8)) : Prop where
  /-- what is compressed is what the stream decodes to -/
  stream : ∀ ds, contents (z.stream z.compressobj ds) = some ds.flatten
  fresh : z.unconsumedTail z.decompressobj = []
  /-- what is left of a piece is its end -/
  tail : ∀ d fed given piece limit block d', z.Reaches d fed given → z.decompress d piece limit = some (block, d') →
    ∃ used, piece = used ++ z.unconsumedTail d'
  unlimited : ∀ d fed given piece block d', z.Reaches d fed given → z.decompress d piece 0 = some (block, d') →
    z.unconsumedTail d' = []
  /-- a call takes something in or gives something out -/
  progress : ∀ d fed given piece limit block d', z.Reaches d fed given → piece ≠ [] →
    z.decompress d piece limit = some (block, d') → (z.unconsumedTail d').length < piece.length ∨ block ≠ []
  /-- a stream is accepted in any pieces -/
  accepts : ∀ c data d fed given piece limit, contents c = some data → z.Reaches d fed given → fed ++ piece <+: c →
    ∃ r, z.decompress d piece limit = some r
  within : ∀ c data d fed given, contents c = some data → z.Reaches d fed given → fed <+: c → given <+: data
  /-- the rest of a stream that was fed comes with the last block -/
  ends : ∀ c data d given, contents c = some data → z.Reaches d c given → z.unconsumedTail d = [] →
    ∃ block d', z.flush d = some (block, d') ∧ z.eof d' = true ∧ z.unusedData d' = [] ∧ z.unconsumedTail d' = [] ∧
      given ++ block = data
  /-- a decompressor at the end of its stream has given its contents out -/
  sound : ∀ d fed given block d', z.Reaches d fed given → z.unconsumedTail d = [] → z.flush d = some (block, d') →
    z.eof d' = true → z.unusedData d' = [] → contents fed = some (given ++ block)

variable {z} {contents : List UInt8 → Option (List UInt8)}

variable {fed given piece block : List UInt8}

theorem Reaches.whole {d d' : D} {limit : ℕ} (h : z.Reaches d fed given)
    (hd : z.decompress d piece limit = some (block, d')) (htail : z.unconsumedTail d' = []) :
    z.Reaches d' (fed ++ piece) (given ++ block) :=
  h.decompress hd (by rw [htail, List.append_nil])

theorem Reaches.divided (hz : z.Lossless contents) {d d' : D} {limit : ℕ} (h : z.Reaches d fed given)
    (hd : z.decompress d piece limit = some (block, d')) :
    ∃ used, piece = used ++ z.unconsumedTail d' ∧ z.Reaches d' (fed ++ used) (given ++ block) := by
  obtain ⟨used, hused⟩ := hz.tail d fed given piece limit block d' h hd
  exact ⟨used, hused, h.decompress hd hused⟩

/-- **Every call of the loop over a tail makes progress**, which the contents of the stream bound. -/
theorem Lossless.fuel (hz : z.Lossless contents) {c data : List UInt8} (hc : contents c = some data) {d d' : D}
    {limit : ℕ} (h : z.Reaches d fed given) (hpiece : piece ≠ []) (hfed : fed ++ piece <+: c)
    (hd : z.decompress d piece limit = some (block, d')) :
    (z.unconsumedTail d').length + (data.length - (given ++ block).length) < piece.length + (data.length - given.length) ∧
      (given ++ block).length ≤ data.length := by
  obtain ⟨used, hused, h'⟩ := h.divided hz hd
  have hpre : fed ++ used <+: c := by
    refine List.IsPrefix.trans ?_ hfed
    rw [hused, ← List.append_assoc]
    exact List.prefix_append _ _
  have hgiven := (hz.within c data d' _ _ hc h' hpre).length_le
  have hlen := congrArg List.length hused
  rw [List.length_append] at hlen hgiven
  rw [List.length_append]
  rcases hz.progress d fed given piece limit block d' h hpiece hd with hless | hblock
  · omega
  · have := List.length_pos_iff.2 hblock
    omega

end Codec

/-! ## Prefix codes -/

/-- a code of complete streams: `split` finds the one that a text starts with -/
structure PrefixCode where
  /-- what is written first -/
  header : List UInt8
  body : List UInt8 → List UInt8
  split : List UInt8 → Option (List UInt8 × List UInt8)
  split_encode : ∀ data, split (header ++ body data) = some (data, [])
  split_append : ∀ c more data rest, split c = some (data, rest) → split (c ++ more) = some (data, rest ++ more)

namespace PrefixCode

/-- a decompressor that waits for the end of its stream -/
inductive Reader where
  | reading (fed : List UInt8)
  | ended (unused : List UInt8)

variable (p : PrefixCode)

def contents (c : List UInt8) : Option (List UInt8) :=
  match p.split c with
  | some (data, []) => some data
  | _ => none

def compress (c : Option (List UInt8)) (data : List UInt8) : List UInt8 × Option (List UInt8) :=
  match c with
  | none => (p.header, some data)
  | some done => ([], some (done ++ data))

def decompress (d : Reader) (piece : List UInt8) : List UInt8 × Reader :=
  match d with
  | .reading fed =>
    match p.split (fed ++ piece) with
    | some (data, unused) => (data, .ended unused)
    | none => ([], .reading (fed ++ piece))
  | .ended unused => ([], .ended (unused ++ piece))

/-- the compressor writes its header at once and the rest at the end; the decompressor gives out a whole stream -/
def codec : Codec (Option (List UInt8)) Reader where
  compressobj := none
  compress := p.compress
  finish := fun c => c.elim (p.header ++ p.body []) p.body
  decompressobj := .reading []
  decompress := fun d piece _ => some (p.decompress d piece)
  flush := fun d => some ([], d)
  unconsumedTail := fun _ => []
  unusedData := fun
    | .reading _ => []
    | .ended unused => unused
  eof := fun
    | .reading _ => false
    | .ended _ => true

variable {c data fed given rest body : List UInt8}

theorem contents_eq_some : p.contents c = some data ↔ p.split c = some (data, []) := by
  unfold contents
  split
  · rename_i data' h
    rw [h]
    simp
  · rename_i h
    constructor
    · simp
    · intro hc
      exact absurd hc (h data)

/-- what a reader has done -/
def Did (d : Reader) (fed given : List UInt8) : Prop :=
  match d with
  | .reading fed' => fed = fed' ∧ given = [] ∧ p.split fed = none
  | .ended unused => p.split fed = some (given, unused)

variable {p}

theorem decompress_did {d d' : Reader} {piece block : List UInt8} (h : p.Did d fed given)
    (hd : p.decompress d piece = (block, d')) : p.Did d' (fed ++ piece) (given ++ block) := by
  cases d with
  | reading fed' =>
    obtain ⟨rfl, rfl, -⟩ := h
    simp only [decompress] at hd
    split at hd
    · rename_i data unused hsplit
      cases hd
      exact hsplit
    · rename_i hsplit
      cases hd
      exact ⟨rfl, rfl, hsplit⟩
  | ended unused =>
    cases hd
    rw [List.append_nil]
    exact p.split_append _ _ _ _ h

theorem did_of_reaches (hempty : p.split [] = none) {d : Reader} (h : p.codec.Reaches d fed given) :
    p.Did d fed given := by
  induction h with
  | start => exact ⟨rfl, rfl, hempty⟩
  | decompress _ hd hused ih =>
    have hpiece := hused.trans (List.append_nil _)
    rw [← hpiece]
    exact decompress_did ih (Option.some.inj hd)

theorem stream_some (data : List UInt8) (ds : List (List UInt8)) :
    p.codec.stream (some data) ds = p.body (data ++ ds.flatten) := by
  induction ds generalizing data with
  | nil => simp [Codec.stream, codec]
  | cons d ds ih =>
    rw [Codec.stream]
    show [] ++ p.codec.stream (some (data ++ d)) ds = _
    rw [ih, List.nil_append, List.flatten_cons, List.append_assoc]

theorem stream_none (ds : List (List UInt8)) : p.codec.stream none ds = p.header ++ p.body ds.flatten := by
  cases ds with
  | nil => rfl
  | cons d ds =>
    rw [Codec.stream]
    show p.header ++ p.codec.stream (some d) ds = _
    rw [stream_some, List.flatten_cons]

/-- **A prefix code is lossless.** -/
theorem lossless (hempty : p.split [] = none) : p.codec.Lossless p.contents where
  stream := by
    intro ds
    rw [contents_eq_some]
    show p.split (p.codec.stream none ds) = _
    rw [stream_none, p.split_encode]
  fresh := rfl
  tail := fun _ _ _ piece _ _ _ _ _ => ⟨piece, (List.append_nil piece).symm⟩
  unlimited := fun _ _ _ _ _ _ _ _ => rfl
  progress := fun _ _ _ _ _ _ _ _ hpiece _ => .inl (List.length_pos_iff.2 hpiece)
  accepts := fun _ _ d _ _ piece _ _ _ _ => ⟨p.decompress d piece, rfl⟩
  within := by
    rintro c data d fed given hc hd ⟨more, rfl⟩
    have h := did_of_reaches hempty hd
    cases d with
    | reading fed' =>
      rw [h.2.1]
      exact List.nil_prefix
    | ended unused =>
      rw [contents_eq_some, p.split_append _ _ _ _ h, Option.some.injEq, Prod.mk.injEq] at hc
      rw [hc.1]
  ends := by
    intro c data d given hc hd _
    have h := did_of_reaches hempty hd
    rw [contents_eq_some] at hc
    cases d with
    | reading fed' =>
      rw [h.2.2] at hc
      cases hc
    | ended unused =>
      have h' : p.split c = some (given, unused) := h
      rw [h', Option.some.injEq, Prod.mk.injEq] at hc
      exact ⟨[], _, rfl, rfl, hc.2, rfl, by rw [List.append_nil, hc.1]⟩
  sound := by
    intro d fed given block d' hd _ hflush heof hunused
    have h := did_of_reaches hempty hd
    cases hflush
    cases d with
    | reading fed' => cases heof
    | ended unused =>
      have h' : p.split fed = some (given, unused) := h
      have hnil : unused = [] := hunused
      rw [contents_eq_some, List.append_nil, h', hnil]

/-- every byte with a mark before it, and a mark at the end -/
def marked (data : List UInt8) : List UInt8 := (data.flatMap fun b => [1, b]) ++ [0]

def unmarked : List UInt8 → Option (List UInt8 × List UInt8)
  | 0 :: rest => some ([], rest)
  | 1 :: b :: rest => (unmarked rest).map fun p => (b :: p.1, p.2)
  | _ => none

theorem unmarked_marked (data rest : List UInt8) : unmarked (marked data ++ rest) = some (data, rest) := by
  induction data with
  | nil => simp [marked, unmarked]
  | cons b data ih =>
    have hcons : marked (b :: data) ++ rest = 1 :: b :: (marked data ++ rest) := by simp [marked]
    rw [hcons, unmarked, ih]
    rfl

theorem unmarked_append (c more : List UInt8) (h : unmarked c = some (data, rest)) :
    unmarked (c ++ more) = some (data, rest ++ more) := by
  induction c using unmarked.induct generalizing data rest with
  | case1 rest' =>
    simp only [unmarked, Option.some.injEq, Prod.mk.injEq] at h
    obtain ⟨rfl, rfl⟩ := h
    simp [unmarked]
  | case2 b rest' ih =>
    rw [unmarked, Option.map_eq_some_iff] at h
    obtain ⟨⟨d, r⟩, hr, heq⟩ := h
    cases heq
    show unmarked (1 :: b :: (rest' ++ more)) = _
    rw [unmarked, ih hr]
    rfl
  | case3 c h₁ h₂ =>
    rw [unmarked] at h
    · cases h
    · exact h₁
    · exact h₂

/-- the stream after its header: the table's entry, or marked bytes -/
def splitBody (data body c : List UInt8) : Option (List UInt8 × List UInt8) :=
  if body <+: c then some (data, c.drop body.length)
  else
    match c with
    | 0 :: rest => unmarked rest
    | _ => none

theorem splitBody_marked {b : UInt8} (hb : b ≠ 0) (rest : List UInt8) :
    splitBody data (b :: body) (0 :: rest) = unmarked rest := by
  unfold splitBody
  rw [if_neg fun h => hb (List.cons_prefix_cons.1 h).1]
  rfl

theorem splitBody_append {b : UInt8} (hb : b ≠ 0) (more : List UInt8) {d : List UInt8}
    (h : splitBody data (b :: body) c = some (d, rest)) :
    splitBody data (b :: body) (c ++ more) = some (d, rest ++ more) := by
  unfold splitBody at h
  split_ifs at h with hpre
  · rw [Option.some.injEq, Prod.mk.injEq] at h
    obtain ⟨rfl, rfl⟩ := h
    unfold splitBody
    rw [if_pos (hpre.trans (List.prefix_append _ _)), List.drop_append_of_le_length hpre.length_le]
  · split at h
    · rename_i rest'
      rw [List.cons_append, splitBody_marked hb]
      exact unmarked_append rest' more h
    · cases h

/-- the code that writes `data` as `b :: body`, and everything else marked -/
def tabled (header data : List UInt8) (b : UInt8) (hb : b ≠ 0) (body : List UInt8) : PrefixCode where
  header := header
  body := fun d => if d = data then b :: body else 0 :: marked d
  split := fun c => if header <+: c then splitBody data (b :: body) (c.drop header.length) else none
  split_encode := by
    intro d
    rw [if_pos (List.prefix_append _ _), List.drop_left' rfl]
    split_ifs with hd
    · unfold splitBody
      rw [if_pos (List.prefix_refl _), List.drop_length, hd]
    · have := unmarked_marked d []
      rw [List.append_nil] at this
      rw [splitBody_marked hb, this]
  split_append := by
    intro c more d rest h
    split_ifs at h with hpre
    rw [if_pos (hpre.trans (List.prefix_append _ _)), List.drop_append_of_le_length hpre.length_le]
    exact splitBody_append hb more h

end PrefixCode

end Apar
