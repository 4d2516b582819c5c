import Mathlib.Data.List.Chain
import Oamb.Runtime.CompletionRetry

/-!
# The recovered number of outer attempts

The calls of a completion are cut into blocks with equal messages. The messages of a later block are
longer, since a correction is only appended. All outer attempts of a block but its last one ended
with a rate limit, which the transport layer retries first: such an outer attempt used all its calls.
Hence the length of a block determines how many outer attempts it holds, and
`modelOuterAttemptCount_of_completion` follows.
-/

set_option autoImplicit false

namespace Oamb.Runtime.OuterAttempts

open Foundation.SegmentedRuns
open CompletionRetry

variable {δ : Type} {script : Script δ}

/-- A failure that is called a rate limit states the status code of a rate limit. -/
def StatesRateLimits (script : Script δ) : Prop :=
  ∀ ordinal messages failureKind supplierStatusCode,
    script.dispatch ordinal messages = .failed (.callFailure failureKind supplierStatusCode) →
    failureKind = "rate_limited" → supplierStatusCode = some 429

/-- Every call that the completion sends is prepared. -/
def PreparesCalls (script : Script δ) : Prop :=
  ∀ ordinal messages reason, script.dispatch ordinal messages ≠ .notPrepared reason

/-! ### One outer attempt -/

/-- The calls with consecutive ordinals and the same messages. -/
def callsBehind (messages : Messages) (ordinal count : ℕ) : List PhysicalCall :=
  (List.range' (ordinal + 1) count).map fun callOrdinal ↦ ⟨callOrdinal, messages⟩

@[simp] theorem length_callsBehind (messages : Messages) (ordinal count : ℕ) :
    (callsBehind messages ordinal count).length = count := by
  simp [callsBehind]

theorem callsBehind_succ (messages : Messages) (ordinal count : ℕ) :
    callsBehind messages ordinal (count + 1) =
      ⟨ordinal + 1, messages⟩ :: callsBehind messages (ordinal + 1) count := rfl

theorem map_messages_callsBehind (messages : Messages) (ordinal count : ℕ) :
    (callsBehind messages ordinal count).map PhysicalCall.messages =
      List.replicate count messages := by
  rw [callsBehind, List.map_map]
  exact List.eq_replicate_iff.mpr ⟨by simp, by simp +contextual⟩

theorem map_ordinal_callsBehind (messages : Messages) (ordinal count : ℕ) :
    (callsBehind messages ordinal count).map PhysicalCall.ordinal =
      List.range' (ordinal + 1) count := by
  rw [callsBehind, List.map_map]
  exact List.map_id _

/-- What holds for an outer attempt with a limited number of calls. -/
structure Sends (messages : Messages) (ordinal limit : ℕ) (outer : OuterAttempt δ) : Prop where
  calls : outer.calls = callsBehind messages ordinal outer.calls.length
  bounded : outer.calls.length ≤ limit
  malformed : ∀ receipt message, outer.ending = .malformed receipt message →
    0 < outer.calls.length
  failed : ∀ error, outer.ending = .failed error →
    0 < outer.calls.length ∧ (isOuterRateLimit error → outer.calls.length = limit)

/-- A failure of a call is one that the script leads to. -/
theorem dispatch_of_physicalCall_failed {messages : Messages} {ordinal : ℕ} {error : CallError}
    (hending : (physicalCall script messages ordinal).ending = .failed error) :
    script.dispatch ordinal messages = .failed error := by
  rw [physicalCall] at hending
  split at hending
  · cases hending
  · rename_i raised hdispatch
    rw [hdispatch]
    cases raised <;> simp only [failureEnd] at hending
    case rateLimitRejection =>
      split at hending
      · cases hending
      · rw [AttemptEnd.failed.inj hending]
    case cancelled => cases hending
    all_goals rw [AttemptEnd.failed.inj hending]
  · simp only [receiptEnd] at hending
    split at hending <;> cases hending

/-- Rate limits are repeated by the transport layer. -/
theorem isTransportRetryable_of_rateLimit (hstates : StatesRateLimits script)
    {messages : Messages} {ordinal : ℕ} {error : CallError}
    (hdispatch : script.dispatch ordinal messages = .failed error)
    (hlimit : isOuterRateLimit error = true) : isTransportRetryable error = true := by
  cases error with
  | callFailure failureKind supplierStatusCode =>
    have hstatus : supplierStatusCode = some 429 := by
      simp only [isOuterRateLimit, CallError.modelCallFailure, decide_eq_true_eq] at hlimit
      exact hlimit.elim id (hstates _ _ _ _ hdispatch)
    simp [isTransportRetryable, CallError.modelCallFailure, hstatus]
  | rateLimitRejection => rfl
  | unknownOutcome => simp [isOuterRateLimit, CallError.modelCallFailure] at hlimit
  | cancelled => simp [isOuterRateLimit, CallError.modelCallFailure] at hlimit
  | unexpected => simp [isOuterRateLimit, CallError.modelCallFailure] at hlimit

theorem physicalCall_calls (script : Script δ) (messages : Messages) (ordinal : ℕ) :
    (physicalCall script messages ordinal).calls = [⟨ordinal, messages⟩] ∨
      (physicalCall script messages ordinal).calls = [] ∧
        ∃ error, (physicalCall script messages ordinal).ending = .raised error := by
  rw [physicalCall]
  split
  · exact Or.inr ⟨rfl, _, rfl⟩
  · exact Or.inl rfl
  · exact Or.inl rfl

/-- One call is an outer attempt without retries. -/
theorem sends_physicalCall (script : Script δ) (messages : Messages) (ordinal : ℕ) :
    Sends messages ordinal 1 (physicalCall script messages (ordinal + 1)) := by
  rcases physicalCall_calls script messages (ordinal + 1) with hcalls | ⟨hcalls, error, hending⟩
  · constructor
    · rw [hcalls]
      rfl
    · simp [hcalls]
    · simp [hcalls]
    · simp [hcalls]
  · constructor
    · rw [hcalls]
      rfl
    · simp [hcalls]
    · simp [hending]
    · simp [hending]

/-- An outer attempt that ends with its first call, where a rate limit would have been repeated. -/
theorem Sends.of_physicalCall {messages : Messages} {ordinal retries : ℕ}
    (hretried : ∀ error, (physicalCall script messages (ordinal + 1)).ending = .failed error →
      isOuterRateLimit error ≠ true) :
    Sends messages ordinal (retries + 2) (physicalCall script messages (ordinal + 1)) := by
  have hone := sends_physicalCall script messages ordinal
  exact ⟨hone.calls, hone.bounded.trans (by omega), hone.malformed, fun error hending ↦
    ⟨(hone.failed error hending).1, fun hlimit ↦ absurd hlimit (hretried error hending)⟩⟩

/-- An outer attempt sends at most as many calls as it has retries and one more, and it sends all of
them when it ends with a rate limit. -/
theorem sends_transportAttempts (hstates : StatesRateLimits script) (messages : Messages)
    (retries : ℕ) : ∀ retryIndex ordinal,
      Sends messages ordinal (retries + 1)
        (transportAttempts script messages retries retryIndex ordinal) := by
  induction retries with
  | zero =>
    intro retryIndex ordinal
    exact sends_physicalCall script messages ordinal
  | succ retries hind =>
    intro retryIndex ordinal
    have hcall := sends_physicalCall script messages ordinal
    simp only [transportAttempts]
    split
    · rename_i error hending
      have hsent : (physicalCall script messages (ordinal + 1)).calls =
          [⟨ordinal + 1, messages⟩] := by
        rcases physicalCall_calls script messages (ordinal + 1) with hsent | ⟨_, raised, hraised⟩
        · exact hsent
        · rw [hending] at hraised
          cases hraised
      split
      · split
        · -- the pause before the retry is interrupted
          rw [hsent]
          exact ⟨rfl, by simp, by simp, by simp⟩
        · have hrest := hind (retryIndex + 1) (ordinal + 1)
          rw [hsent]
          refine ⟨?_, ?_, ?_, ?_⟩
          · rw [List.singleton_append, List.length_cons, callsBehind_succ, ← hrest.calls]
          · simpa using hrest.bounded
          · intro _ _ _
            simp
          · intro last hlast
            refine ⟨by simp, fun hlimit ↦ ?_⟩
            simpa using (hrest.failed last hlast).2 hlimit
      · rename_i hfinal
        refine Sends.of_physicalCall fun last hlast hlimit ↦ hfinal ?_
        have hsame : error = last := AttemptEnd.failed.inj (hending.symm.trans hlast)
        rw [hsame]
        exact isTransportRetryable_of_rateLimit hstates
          (dispatch_of_physicalCall_failed hlast) hlimit
    · rename_i hother
      exact Sends.of_physicalCall fun last hlast ↦ absurd hlast (hother last)

/-- An outer attempt sends a call when its first call is prepared. -/
theorem transportAttempts_sends (hprepares : PreparesCalls script) (messages : Messages)
    (retries retryIndex ordinal : ℕ) :
    0 < (transportAttempts script messages retries retryIndex ordinal).calls.length := by
  have hcall : 0 < (physicalCall script messages (ordinal + 1)).calls.length := by
    rw [physicalCall]
    split
    · rename_i reason hdispatch
      exact absurd hdispatch (hprepares _ _ reason)
    · exact Nat.one_pos
    · exact Nat.one_pos
  cases retries with
  | zero => exact hcall
  | succ retries =>
    simp only [transportAttempts]
    split
    · split
      · split
        · exact hcall
        · rw [List.length_append]
          exact Nat.add_pos_left hcall _
      · exact hcall
    · exact hcall

/-! ### All outer attempts -/

/-- The calls of a completion behind a number of calls, in blocks with equal messages. -/
structure Blocks (size : ℕ) (messages : Messages) (ordinal : ℕ) (completion : Completion δ)
    (count : ℕ) (later : List (Messages × ℕ)) : Prop where
  ordinals : completion.calls.map PhysicalCall.ordinal =
    List.range' (ordinal + 1) completion.calls.length
  blocks : completion.calls.map PhysicalCall.messages = expand ((messages, count) :: later)
  longer : ((messages, count) :: later).IsChain fun first second ↦
    first.1.length < second.1.length
  counted : completion.outerAttempts =
    (((messages, count) :: later).map fun block ↦ portions size block.2).sum

theorem blocks_last {size ordinal : ℕ} {messages : Messages} {outer : OuterAttempt δ}
    (hsends : Sends messages ordinal size outer)
    (result : Except CompletionError (ModelReceipt δ)) :
    Blocks size messages ordinal (outer.last result) outer.calls.length [] := by
  constructor
  · rw [OuterAttempt.last, hsends.calls, map_ordinal_callsBehind, length_callsBehind]
  · rw [OuterAttempt.last, hsends.calls, map_messages_callsBehind, length_callsBehind]
    simp
  · exact List.isChain_singleton _
  · simp only [OuterAttempt.last, Completion.outerAttempts, List.map_cons, List.map_nil,
      List.sum_cons, List.sum_nil, Nat.add_zero]
    rcases Nat.eq_zero_or_pos outer.calls.length with hnone | hsome
    · rw [hnone, portions, Nat.zero_add]
      rcases Nat.eq_zero_or_pos size with hsize | hsize
      · rw [hsize]
        rfl
      · rw [Nat.div_eq_of_lt (by omega)]
        rfl
    · rw [portions_eq_one hsome hsends.bounded]
      simp [hsome]

theorem outerAttempts_before {outer : OuterAttempt δ} {rest : Completion δ}
    (hsent : 0 < outer.calls.length) :
    (outer.before rest).outerAttempts = 1 + rest.outerAttempts := by
  simp [OuterAttempt.before, Completion.outerAttempts, hsent, Nat.add_comm]

theorem ordinals_before {size ordinal : ℕ} {messages : Messages} {outer : OuterAttempt δ}
    {rest : Completion δ} (hsends : Sends messages ordinal size outer)
    (hrest : rest.calls.map PhysicalCall.ordinal =
      List.range' (ordinal + outer.calls.length + 1) rest.calls.length) :
    (outer.before rest).calls.map PhysicalCall.ordinal =
      List.range' (ordinal + 1) (outer.before rest).calls.length := by
  have houter : outer.calls.map PhysicalCall.ordinal =
      List.range' (ordinal + 1) outer.calls.length := by
    rw [hsends.calls, map_ordinal_callsBehind, length_callsBehind]
  simp only [OuterAttempt.before, List.map_append, houter, hrest, List.length_append]
  rw [show ordinal + outer.calls.length + 1 = ordinal + 1 + outer.calls.length by omega]
  exact List.range'_append_1

/-- A correction begins a new block. -/
theorem Blocks.of_malformed {size ordinal count : ℕ} {messages corrected : Messages}
    {outer : OuterAttempt δ} {rest : Completion δ} {later : List (Messages × ℕ)}
    (hsends : Sends messages ordinal size outer) (hsent : 0 < outer.calls.length)
    (hlonger : messages.length < corrected.length)
    (hrest : Blocks size corrected (ordinal + outer.calls.length) rest count later) :
    Blocks size messages ordinal (outer.before rest) outer.calls.length
      ((corrected, count) :: later) := by
  constructor
  · exact ordinals_before hsends hrest.ordinals
  · rw [OuterAttempt.before, List.map_append, hrest.blocks, expand_cons _ (_ :: _)]
    rw [hsends.calls, map_messages_callsBehind, length_callsBehind]
  · exact List.isChain_cons_cons.mpr ⟨hlonger, hrest.longer⟩
  · rw [outerAttempts_before hsent, hrest.counted]
    simp only [List.map_cons, List.sum_cons, portions_eq_one hsent hsends.bounded]

/-- A rate limit continues the block with one more full portion. -/
theorem Blocks.of_rateLimit {size ordinal count : ℕ} {messages : Messages}
    {outer : OuterAttempt δ} {rest : Completion δ} {later : List (Messages × ℕ)}
    (hsize : 0 < size) (hsends : Sends messages ordinal size outer)
    (hfull : outer.calls.length = size)
    (hrest : Blocks size messages (ordinal + outer.calls.length) rest count later) :
    Blocks size messages ordinal (outer.before rest) (size + count) later := by
  constructor
  · exact ordinals_before hsends hrest.ordinals
  · rw [OuterAttempt.before, List.map_append, hrest.blocks, hsends.calls,
      map_messages_callsBehind, hfull, expand_cons, expand_cons, List.replicate_add,
      List.append_assoc]
  · cases later with
    | nil => exact List.isChain_singleton _
    | cons block later =>
      have hchain := List.isChain_cons_cons.mp hrest.longer
      exact List.isChain_cons_cons.mpr hchain
  · rw [outerAttempts_before (hfull ▸ hsize), hrest.counted, List.map_cons, List.map_cons,
      List.sum_cons, List.sum_cons, portions_add hsize, Nat.add_assoc]

theorem length_lt_appendFormatCorrection (messages : Messages) (outputText error : String) :
    messages.length < (appendFormatCorrection messages outputText error).length := by
  simp [appendFormatCorrection]

theorem exists_blocks (hstates : StatesRateLimits script) (maxTransportRetries attempts : ℕ) :
    ∀ outerIndex ordinal messages, ∃ count later,
      Blocks (maxTransportRetries + 1) messages ordinal
        (outerAttempts script maxTransportRetries attempts outerIndex ordinal messages)
        count later := by
  induction attempts with
  | zero =>
    intro outerIndex ordinal messages
    refine ⟨0, [], rfl, rfl, List.isChain_singleton _, ?_⟩
    simp [outerAttempts, Completion.outerAttempts, portions_zero]
  | succ attempts hind =>
    intro outerIndex ordinal messages
    have hsends := sends_transportAttempts hstates messages maxTransportRetries 0 ordinal
    simp only [outerAttempts]
    split
    · exact ⟨_, _, blocks_last hsends _⟩
    · exact ⟨_, _, blocks_last hsends _⟩
    · rename_i receipt message hending
      split
      · exact ⟨_, _, blocks_last hsends _⟩
      · obtain ⟨count, later, hrest⟩ := hind (outerIndex + 1) _
          (appendFormatCorrection messages receipt.outputText message)
        exact ⟨_, _, Blocks.of_malformed hsends (hsends.malformed _ _ hending)
          (length_lt_appendFormatCorrection _ _ _) hrest⟩
    · rename_i error hending
      split
      · rename_i hagain
        split
        · exact ⟨_, _, blocks_last hsends _⟩
        · obtain ⟨count, later, hrest⟩ := hind (outerIndex + 1) _ messages
          exact ⟨_, _, Blocks.of_rateLimit (Nat.succ_pos _) hsends
            ((hsends.failed _ hending).2 hagain.1) hrest⟩
      · exact ⟨_, _, blocks_last hsends _⟩

/-! ### The recovered number -/

theorem outerCalls_pos (hprepares : PreparesCalls script) (maxTransportRetries attempts : ℕ) :
    ∀ outerIndex ordinal messages, ∀ count ∈ (outerAttempts script maxTransportRetries attempts
      outerIndex ordinal messages).outerCalls, 0 < count := by
  induction attempts with
  | zero =>
    intro outerIndex ordinal messages count hcount
    cases hcount
  | succ attempts hind =>
    intro outerIndex ordinal messages
    have hsent : 0 < (transportAttempts script messages maxTransportRetries 0 ordinal).calls.length :=
      transportAttempts_sends hprepares messages maxTransportRetries 0 ordinal
    have hlast : ∀ result, ∀ count ∈ ((transportAttempts script messages maxTransportRetries 0
        ordinal).last result).outerCalls, 0 < count := by
      intro result count hcount
      rw [List.mem_singleton.mp hcount]
      exact hsent
    have hbefore : ∀ next, ∀ count ∈ ((transportAttempts script messages maxTransportRetries 0
        ordinal).before (outerAttempts script maxTransportRetries attempts (outerIndex + 1)
          (ordinal + (transportAttempts script messages maxTransportRetries 0
            ordinal).calls.length) next)).outerCalls, 0 < count := by
      intro next count hcount
      rcases List.mem_cons.mp hcount with hfirst | hrest
      · rw [hfirst]
        exact hsent
      · exact hind _ _ _ count hrest
    simp only [outerAttempts]
    split
    · exact hlast _
    · exact hlast _
    · split
      · exact hlast _
      · exact hbefore _
    · split
      · split
        · exact hlast _
        · exact hbefore _
      · exact hlast _

/-- Attempts that all state a hash are grouped by their hashes. -/
theorem foldlM_groupAttempt {messagesSha256 : Messages → String}
    (hstated : ∀ messages, messagesSha256 messages ≠ "") (calls : List PhysicalCall) :
    ∀ groups final,
      readAll groups (calls.map fun call ↦ messagesSha256 call.messages) = some final →
      (calls.map fun call ↦ (⟨call.ordinal, some (messagesSha256 call.messages)⟩ :
        ModelAttempt)).foldlM groupAttempt groups = .ok final := by
  induction calls with
  | nil =>
    intro groups final hfinal
    exact congrArg Except.ok (Option.some.inj hfinal)
  | cons call calls hind =>
    intro groups final hfinal
    simp only [readAll, List.map_cons, List.foldlM_cons] at hfinal
    cases hpush : groups.push (messagesSha256 call.messages) with
    | none => simp [hpush] at hfinal
    | some next =>
      rw [hpush] at hfinal
      have hgroup : groupAttempt groups
          ⟨call.ordinal, some (messagesSha256 call.messages)⟩ = .ok next := by
        simp only [groupAttempt, hstated, if_false, hpush]
      rw [List.map_cons, List.foldlM_cons, hgroup]
      exact hind next final hfinal

/-- The hashes of the calls are segmented into the blocks that hold calls. -/
theorem Blocks.exists_readAll {messagesSha256 : Messages → String} {size ordinal count : ℕ}
    {messages : Messages} {completion : Completion δ} {later : List (Messages × ℕ)}
    (hsize : 0 < size) (hblocks : Blocks size messages ordinal completion count later)
    (hdistinct : ∀ first ∈ completion.calls, ∀ second ∈ completion.calls,
      messagesSha256 first.messages = messagesSha256 second.messages →
      first.messages = second.messages) :
    ∃ final,
      readAll Segmentation.empty
        (completion.calls.map fun call ↦ messagesSha256 call.messages) = some final ∧
      (final.lengths.map (portions size)).sum = completion.outerAttempts := by
  set filled := ((messages, count) :: later).filter fun block ↦ 0 < block.2 with hfilled
  have hsent : ∀ block ∈ filled, ∃ call ∈ completion.calls, call.messages = block.1 := by
    intro block hblock
    obtain ⟨hblock, hcount⟩ := List.mem_filter.mp (hfilled ▸ hblock)
    have hmember := mem_expand hblock (by simpa using hcount)
    rw [← hblocks.blocks] at hmember
    exact List.mem_map.mp hmember
  have hlonger : filled.Pairwise fun first second ↦ first.1.length < second.1.length := by
    have hall := List.isChain_iff_pairwise.mp
      (List.isChain_map (fun block : Messages × ℕ ↦ block.1.length) |>.mpr hblocks.longer)
    exact (List.pairwise_map.mp hall).sublist List.filter_sublist
  have hnodup : ((filled.map fun block ↦ (messagesSha256 block.1, block.2)).map
      Prod.fst).Nodup := by
    rw [List.map_map]
    refine List.pairwise_map.mpr (List.Pairwise.imp_of_mem ?_ hlonger)
    intro first second hfirst hsecond hless hsame
    obtain ⟨firstCall, hfirstCall, hfirst⟩ := hsent first hfirst
    obtain ⟨secondCall, hsecondCall, hsecond⟩ := hsent second hsecond
    have hequal : first.1 = second.1 := by
      rw [← hfirst, ← hsecond]
      refine hdistinct firstCall hfirstCall secondCall hsecondCall ?_
      rw [hfirst, hsecond]
      exact hsame
    rw [hequal] at hless
    exact hless.false
  obtain ⟨final, hfinal, hlengths⟩ := readAll_expand
    (filled.map fun block ↦ (messagesSha256 block.1, block.2)) Segmentation.empty hnodup
    (fun block hblock ↦ by
      obtain ⟨original, horiginal, rfl⟩ := List.mem_map.mp hblock
      have hcount := (List.mem_filter.mp (hfilled ▸ horiginal)).2
      simpa using hcount)
    (fun _ _ hseen ↦ by cases hseen) (fun _ hcurrent ↦ by cases hcurrent)
  refine ⟨final, ?_, ?_⟩
  · have hhashes : (completion.calls.map fun call ↦ messagesSha256 call.messages) =
        (completion.calls.map PhysicalCall.messages).map messagesSha256 := by
      rw [List.map_map]
      rfl
    rw [hhashes, hblocks.blocks, ← expand_filter, map_expand, ← hfilled, hfinal]
  · have hsum : (filled.map fun block ↦ portions size block.2).sum = completion.outerAttempts := by
      rw [hblocks.counted, hfilled, sum_portions_filter hsize]
    rw [hlengths, ← hsum, Segmentation.empty, List.append_nil, List.map_reverse,
      List.sum_reverse, List.map_map, List.map_map]
    rfl

/-- Records with the ordinals one after another are ordered by their ordinals. -/
theorem insertionSort_eq_of_perm {attempts records : List ModelAttempt} {first count : ℕ}
    (hperm : attempts.Perm records)
    (hordinals : records.map ModelAttempt.ordinal = List.range' first count) :
    attempts.insertionSort (fun left right ↦ left.ordinal ≤ right.ordinal) = records := by
  have hstrict : records.Pairwise fun left right ↦ left.ordinal < right.ordinal := by
    rw [← List.pairwise_map, hordinals]
    exact List.pairwise_lt_range'
  have hsorted : (attempts.insertionSort fun left right ↦
      left.ordinal ≤ right.ordinal).Pairwise fun left right ↦ left.ordinal ≤ right.ordinal :=
    List.pairwise_insertionSort _ _
  have hsame := (List.perm_insertionSort (fun left right : ModelAttempt ↦
    left.ordinal ≤ right.ordinal) attempts).trans hperm
  have hdistinct : ∀ left ∈ records, ∀ right ∈ records, left.ordinal = right.ordinal →
      left = right := by
    apply List.inj_on_of_nodup_map
    rw [hordinals]
    exact List.nodup_range'
  refine hsame.eq_of_pairwise ?_ hsorted (hstrict.imp Nat.le_of_lt)
  intro left right hleft hright hle hge
  exact hdistinct left (hsame.subset hleft) right hright (Nat.le_antisymm hle hge)

/-- Whatever the calls of a completion lead to, the number of outer attempts that sent a call is
recovered from the records that are sealed for them, in any order. When all calls are prepared, this
is the number of outer attempts that were begun. -/
theorem modelOuterAttemptCount_of_completion (hstates : StatesRateLimits script)
    (messages : Messages) (maxOuterAttempts maxTransportRetries : ℕ) (completion : Completion δ)
    (hcompletion : executeModelCompletionRetry script messages maxOuterAttempts
      maxTransportRetries = completion)
    (messagesSha256 : Messages → String) (hstated : ∀ messages, messagesSha256 messages ≠ "")
    (hdistinct : ∀ first ∈ completion.calls, ∀ second ∈ completion.calls,
      messagesSha256 first.messages = messagesSha256 second.messages →
      first.messages = second.messages)
    (attempts : List ModelAttempt)
    (hattempts : attempts.Perm (sealedAttempts messagesSha256 completion)) :
    modelOuterAttemptCount attempts maxTransportRetries = .ok completion.outerAttempts ∧
      (PreparesCalls script → completion.outerAttempts = completion.outerCalls.length) := by
  subst hcompletion
  rw [executeModelCompletionRetry] at hdistinct hattempts ⊢
  split at hdistinct
  · rename_i hlimit
    rw [if_pos hlimit] at hattempts ⊢
    rw [List.perm_nil.mp hattempts]
    exact ⟨rfl, fun _ ↦ rfl⟩
  · rename_i hlimit
    rw [if_neg hlimit] at hattempts ⊢
    obtain ⟨count, later, hblocks⟩ :=
      exists_blocks hstates maxTransportRetries maxOuterAttempts 0 0 messages
    have hpositive := fun hprepares : PreparesCalls script ↦
      outerCalls_pos hprepares maxTransportRetries maxOuterAttempts 0 0 messages
    generalize outerAttempts script maxTransportRetries maxOuterAttempts 0 0 messages = run
      at hdistinct hattempts hblocks hpositive ⊢
    refine ⟨?_, fun hprepares ↦ List.countP_eq_length.mpr fun count hcount ↦
      decide_eq_true (hpositive hprepares count hcount)⟩
    obtain ⟨final, hfinal, hsum⟩ := hblocks.exists_readAll (Nat.succ_pos _) hdistinct
    have hordinals : (sealedAttempts messagesSha256 run).map ModelAttempt.ordinal =
        List.range' (0 + 1) run.calls.length := by
      rw [sealedAttempts, List.map_map]
      exact hblocks.ordinals
    have hgroups : (sealedAttempts messagesSha256 run).foldlM groupAttempt Segmentation.empty =
        .ok final := foldlM_groupAttempt hstated _ _ final hfinal
    simp only [modelOuterAttemptCount, insertionSort_eq_of_perm hattempts hordinals, hgroups]
    by_cases hnone : attempts = []
    · have hcalls : run.calls = [] := by
        rw [hnone] at hattempts
        exact List.map_eq_nil_iff.mp (List.nil_perm.mp hattempts)
      rw [hcalls] at hfinal
      have hempty : Segmentation.empty = final := Option.some.inj hfinal
      rw [if_pos hnone, ← hsum, ← hempty]
      rfl
    · rw [if_neg hnone, ← hsum]
      rfl

/-! ### A run with both kinds of retries -/

/-- A timeout, a malformed output, two rate limits, and a valid output. -/
def sampleScript : Script Unit where
  dispatch ordinal _ :=
    if ordinal = 1 then .failed (.unknownOutcome "timeout")
    else if ordinal = 2 then .received ⟨"malformed", ()⟩
    else if ordinal = 3 then .failed (.rateLimitRejection 0)
    else if ordinal = 4 then .failed (.callFailure "rate_limited" (some 429))
    else .received ⟨"yes", ()⟩
  validate receipt :=
    if receipt.outputText = "yes" then none else some (.valueError "judge output is not a verdict")
  sleep _ _ := none

theorem statesRateLimits_sampleScript : StatesRateLimits sampleScript := by
  intro ordinal messages failureKind supplierStatusCode hdispatch _
  simp only [sampleScript] at hdispatch
  split_ifs at hdispatch <;> cases hdispatch
  rfl

/-- A hash that differs on the two requests of the run. -/
def sampleSha256 (messages : Messages) : String :=
  if messages.length = 1 then "3f1a" else "9c07"

theorem modelOuterAttemptCount_of_sampleScript :
    modelOuterAttemptCount [⟨5, some "9c07"⟩, ⟨1, some "3f1a"⟩, ⟨2, some "3f1a"⟩,
      ⟨3, some "9c07"⟩, ⟨4, some "9c07"⟩] 1 = .ok 3 := by
  refine (modelOuterAttemptCount_of_completion statesRateLimits_sampleScript
    [("user", "Is the answer right?")] 6 1 _ rfl sampleSha256 ?_ ?_ _ ?_).1
  · intro messages
    rw [sampleSha256]
    split <;> decide
  · decide +kernel
  · decide +kernel

end Oamb.Runtime.OuterAttempts
