import ChipEight.Program

/-!
# What is taken from a source

A source delivers given data if its reads, one after the other, bring the data in pieces of any
size, with interruptions anywhere between them; it may fail at a place, and then the read that would
begin there is the failing one.  What is taken from such a source does not depend on the pieces: it
is the data up to the limit, or up to the failure if that lies within the data and the limit.
-/

namespace ChipEight

namespace Read

/-- The reads bring the data.  A failure has the place at which it comes, counted from here, and its
text; one beyond the end of the data never comes. -/
inductive Delivers : List UInt8 → Option (Nat × String) → List Read → Prop where
  | exhausted {failure? : Option (Nat × String)} :
    (∀ failure ∈ failure?, 0 < failure.1) → Delivers [] failure? []
  /-- The end of the source, told by a read of no bytes. -/
  | ended {failure? : Option (Nat × String)} (rest : List Read) :
    (∀ failure ∈ failure?, 0 < failure.1) → Delivers [] failure? (.bytes [] :: rest)
  | failed (data : List UInt8) (text : String) (rest : List Read) :
    Delivers data (some (0, text)) (.failed text :: rest)
  | interrupted {data : List UInt8} {failure? : Option (Nat × String)} {reads : List Read} :
    Delivers data failure? reads → Delivers data failure? (.interrupted :: reads)
  | piece {chunk data : List UInt8} {failure? : Option (Nat × String)} {reads : List Read} :
    chunk ≠ [] → (∀ failure ∈ failure?, chunk.length ≤ failure.1) →
    Delivers data (failure?.map fun failure ↦ (failure.1 - chunk.length, failure.2)) reads →
    Delivers (chunk ++ data) failure? (.bytes chunk :: reads)

theorem intake_zero (source : List Read) : intake 0 source = {} := by
  cases source <;> rfl

theorem intake_nil (limit : Nat) : intake limit [] = {} := by
  cases limit <;> rfl

theorem intake_interrupted (limit : Nat) (rest : List Read) :
    intake limit (.interrupted :: rest) = intake limit rest := by
  cases limit with
  | zero => rw [intake_zero, intake_zero]
  | succ limit => rfl

theorem intake_bytes (limit : Nat) (chunk : List UInt8) (hchunk : chunk ≠ []) (rest : List Read) :
    intake limit (.bytes chunk :: rest) = {
      bytes := chunk.take limit ++ (intake (limit - chunk.length) rest).bytes
      fault? := (intake (limit - chunk.length) rest).fault? } := by
  cases limit with
  | zero => rw [Nat.zero_sub, intake_zero, intake_zero, List.take_zero, List.nil_append]
  | succ limit =>
    cases chunk with
    | nil => contradiction
    | cons b chunk => rfl

variable {data : List UInt8} {failure? : Option (Nat × String)} {source : List Read}

/-- A failure within the data and the limit is reached, and what comes before it is taken. -/
theorem Delivers.intake_of_failure (h : Delivers data failure? source) {place limit : Nat}
    {text : String} (hfailure : failure? = some (place, text)) (hplace : place ≤ data.length)
    (hlimit : place < limit) :
    intake limit source = { bytes := data.take place, fault? := some text } := by
  induction h generalizing place limit with
  | exhausted hlater | ended rest hlater =>
    have hpos := hlater _ hfailure
    simp only [List.length_nil, Nat.le_zero] at hplace
    omega
  | failed data text rest =>
    cases hfailure
    obtain ⟨limit, rfl⟩ := Nat.exists_eq_add_one.mpr hlimit
    rfl
  | interrupted _ ih =>
    rw [intake_interrupted]
    exact ih hfailure hplace hlimit
  | @piece chunk data failure? reads hchunk hbefore _ ih =>
    have hlength : chunk.length ≤ place := hbefore _ hfailure
    rw [List.length_append] at hplace
    have hrest : intake (limit - chunk.length) reads =
        { bytes := data.take (place - chunk.length), fault? := some text } := by
      apply ih
      · rw [hfailure, Option.map_some]
      · omega
      · omega
    have hwhole : chunk.length ≤ limit := by omega
    rw [intake_bytes limit chunk hchunk, hrest, List.take_append,
      List.take_of_length_le hwhole, List.take_of_length_le hlength]

/-- Without a failure within the data and the limit, the data are taken up to the limit. -/
theorem Delivers.intake_of_no_failure (h : Delivers data failure? source) {limit : Nat}
    (hbeyond : ∀ failure ∈ failure?, limit ≤ failure.1 ∨ data.length < failure.1) :
    intake limit source = { bytes := data.take limit } := by
  induction h generalizing limit with
  | exhausted => rw [intake_nil, List.take_nil]
  | ended rest =>
    cases limit with
    | zero => rw [intake_zero, List.take_nil]
    | succ limit =>
      rw [List.take_nil]
      rfl
  | failed data text rest =>
    have hzero : limit = 0 := by
      rcases hbeyond _ rfl with h | h
      · exact Nat.le_zero.mp h
      · contradiction
    rw [hzero, intake_zero, List.take_zero]
  | interrupted _ ih =>
    rw [intake_interrupted]
    exact ih hbeyond
  | @piece chunk data failure? reads hchunk hbefore _ ih =>
    have hrest : intake (limit - chunk.length) reads =
        { bytes := data.take (limit - chunk.length) } := by
      apply ih
      intro failure hfailure
      obtain ⟨original, horiginal, rfl⟩ := Option.map_eq_some_iff.mp hfailure
      have hlength := hbefore original horiginal
      rcases hbeyond original horiginal with h | h
      · exact .inl (Nat.sub_le_sub_right h _)
      · rw [List.length_append] at h
        exact .inr (by omega)
    rw [intake_bytes limit chunk hchunk, hrest, List.take_append]

/-- No more than the limit is taken, and what is taken is the beginning of the data. -/
theorem Delivers.exists_bytes_intake_eq (h : Delivers data failure? source) (limit : Nat) :
    ∃ taken ≤ limit, (intake limit source).bytes = data.take taken := by
  by_cases hreached : ∃ place text, failure? = some (place, text) ∧ place ≤ data.length ∧
      place < limit
  · obtain ⟨place, text, hfailure, hplace, hlimit⟩ := hreached
    refine ⟨place, Nat.le_of_lt hlimit, ?_⟩
    rw [h.intake_of_failure hfailure hplace hlimit]
  · refine ⟨limit, Nat.le_refl _, ?_⟩
    rw [h.intake_of_no_failure]
    rintro ⟨place, text⟩ hfailure
    rcases Nat.lt_or_ge place limit with hlimit | hlimit
    · rcases Nat.lt_or_ge data.length place with hlength | hplace
      · exact .inr hlength
      · exact absurd ⟨place, text, hfailure, hplace, hlimit⟩ hreached
    · exact .inl hlimit

/-! ## Ways of delivery -/

theorem Delivers.pieces {pieces : List (List UInt8)} (hpieces : ∀ chunk ∈ pieces, chunk ≠ [])
    (hbefore : ∀ failure ∈ failure?, pieces.flatten.length ≤ failure.1)
    (h : Delivers data
      (failure?.map fun failure ↦ (failure.1 - pieces.flatten.length, failure.2)) source) :
    Delivers (pieces.flatten ++ data) failure? (pieces.map .bytes ++ source) := by
  induction pieces generalizing failure? with
  | nil =>
    simp only [List.flatten_nil, List.length_nil, Nat.sub_zero] at h
    rwa [Option.map_id'] at h
  | cons chunk pieces ih =>
    simp only [List.flatten_cons, List.length_append] at h hbefore
    rw [List.flatten_cons, List.append_assoc]
    apply Delivers.piece (hpieces _ List.mem_cons_self)
    · intro failure hfailure
      exact Nat.le_trans (Nat.le_add_right _ _) (hbefore failure hfailure)
    · apply ih
      · intro other hother
        exact hpieces other (List.mem_cons_of_mem _ hother)
      · intro failure hfailure
        obtain ⟨original, horiginal, rfl⟩ := Option.map_eq_some_iff.mp hfailure
        have hle := hbefore original horiginal
        exact Nat.le_sub_of_add_le (by omega)
      · rw [Option.map_map]
        simp only [Function.comp_def, Nat.sub_sub]
        exact h

theorem Delivers.interrupted_everywhere (h : Delivers data failure? source) :
    Delivers data failure? (source.flatMap fun read ↦ [.interrupted, read]) := by
  induction h with
  | exhausted hlater => exact .exhausted hlater
  | ended rest hlater => exact (Delivers.ended _ hlater).interrupted
  | failed data text rest => exact (Delivers.failed data text _).interrupted
  | interrupted _ ih => exact ih.interrupted.interrupted
  | piece hchunk hbefore _ ih => exact (Delivers.piece hchunk hbefore ih).interrupted

end Read

namespace Delivery

open Read

theorem flatten_chunks {α : Type} {size : Nat} (hsize : 0 < size) (list : List α) :
    (chunks size list).flatten = list := by
  induction list using chunks.induct size with
  | case1 => rw [chunks, List.flatten_nil]
  | case2 a rest hzero => exact absurd hzero (Nat.ne_of_gt hsize)
  | case3 a rest hpos ih =>
    rw [chunks, if_neg hpos, List.flatten_cons, ih, List.cons_append, List.take_append_drop]

theorem ne_nil_of_mem_chunks {α : Type} {size : Nat} (hsize : 0 < size) {list piece : List α}
    (h : piece ∈ chunks size list) : piece ≠ [] := by
  induction list using chunks.induct size with
  | case1 =>
    rw [chunks] at h
    contradiction
  | case2 a rest hzero => exact absurd hzero (Nat.ne_of_gt hsize)
  | case3 a rest hpos ih =>
    rw [chunks, if_neg hpos] at h
    rcases List.mem_cons.mp h with rfl | hrest
    · exact List.cons_ne_nil _ _
    · exact ih hrest

variable {data : List UInt8} {failure? : Option (Nat × String)} {source : List Read}

theorem chunks_deliver {size : Nat} (hsize : 0 < size) {list : List UInt8}
    (hbefore : ∀ failure ∈ failure?, list.length ≤ failure.1)
    (h : Delivers data (failure?.map fun failure ↦ (failure.1 - list.length, failure.2)) source) :
    Delivers (list ++ data) failure? ((chunks size list).map .bytes ++ source) := by
  have hflatten := flatten_chunks hsize list
  have hpieces : ∀ chunk ∈ chunks size list, chunk ≠ [] := fun _ ↦ ne_nil_of_mem_chunks hsize
  rw [← hflatten] at hbefore h
  have hdelivers := Delivers.pieces hpieces hbefore h
  rwa [hflatten] at hdelivers

theorem chunks_deliver_all {size : Nat} (hsize : 0 < size)
    (hbeyond : ∀ failure ∈ failure?, data.length < failure.1) :
    Delivers data failure? ((chunks size data).map .bytes) := by
  have hdelivers : Delivers (data ++ []) failure? ((chunks size data).map .bytes ++ []) := by
    apply chunks_deliver hsize
    · intro failure hfailure
      exact Nat.le_of_lt (hbeyond failure hfailure)
    · apply Delivers.exhausted
      intro failure hfailure
      obtain ⟨original, horiginal, rfl⟩ := Option.map_eq_some_iff.mp hfailure
      exact Nat.sub_pos_of_lt (hbeyond original horiginal)
  rwa [List.append_nil, List.append_nil] at hdelivers

theorem attempts_deliver (d : Delivery) (hsize : 0 < d.chunkSize) (data : List UInt8) :
    Delivers data d.failure? (d.attempts data) := by
  unfold attempts
  rcases d.failure? with _ | ⟨place, text⟩
  · exact chunks_deliver_all hsize fun _ h ↦ nomatch h
  · dsimp only
    by_cases hplace : place ≤ data.length
    · have hlength : (data.take place).length = place := List.length_take_of_le hplace
      have hdelivers : Delivers (data.take place ++ data.drop place) (some (place, text))
          ((chunks d.chunkSize (data.take place)).map .bytes ++ [.failed text]) := by
        apply chunks_deliver hsize
        · rintro _ ⟨⟩
          exact Nat.le_of_eq hlength
        · rw [Option.map_some, hlength, Nat.sub_self]
          exact .failed _ text []
      rw [List.take_append_drop] at hdelivers
      rwa [if_pos hplace]
    · rw [if_neg hplace]
      apply chunks_deliver_all hsize
      rintro _ ⟨⟩
      exact Nat.lt_of_not_le hplace

/-- Chunks of any size but zero, interrupted or not, deliver the data. -/
theorem reads_deliver (d : Delivery) (hsize : 0 < d.chunkSize) (data : List UInt8) :
    Delivers data d.failure? (d.reads data) := by
  have hattempts := attempts_deliver d hsize data
  unfold reads
  cases d.interrupts with
  | false => exact hattempts
  | true => exact hattempts.interrupted_everywhere

end Delivery

end ChipEight
