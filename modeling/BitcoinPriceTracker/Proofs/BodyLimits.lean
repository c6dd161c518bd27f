import BitcoinPriceTracker.Lib.Chunks
import BitcoinPriceTracker.Model.News

namespace BitcoinPriceTracker

lemma providerLimit_keeps : Chunks.Keeps UPSTREAM_BODY_LIMIT fun held size => !(UPSTREAM_BODY_LIMIT - held < size) := by
  intro held size hheld
  simp only [Bool.not_eq_true', decide_eq_false_iff_not]
  omega

lemma feedLimit_keeps : Chunks.Keeps News.MAX_FEED_BYTES fun held size => !(News.MAX_FEED_BYTES < held + size) := by
  intro held size _
  simp only [Bool.not_eq_true', decide_eq_false_iff_not]
  omega

lemma readChunks_eq_collect (provider : UpstreamSource) (buffer : List UInt8) (chunks : List (List UInt8)) :
    readChunks provider none buffer chunks =
      Chunks.collect (fun held size => !(UPSTREAM_BODY_LIMIT - held < size)) (oversized provider) buffer chunks := by
  induction chunks generalizing buffer with
  | nil => rfl
  | cons chunk rest ih =>
    rw [readChunks, Chunks.collect, ih]
    by_cases hover : UPSTREAM_BODY_LIMIT - buffer.length < chunk.length <;> simp [hover]

lemma readFeed_eq_collect (buffer : List UInt8) (chunks : List (List UInt8)) :
    News.readFeed none buffer chunks =
      Chunks.collect (fun held size => !(News.MAX_FEED_BYTES < held + size)) "RSS response exceeded size limit" buffer
        chunks := by
  induction chunks generalizing buffer with
  | nil => rfl
  | cons chunk rest ih =>
    rw [News.readFeed, Chunks.collect, ih]
    by_cases hover : News.MAX_FEED_BYTES < buffer.length + chunk.length <;> simp [hover]

/-- `read` is a loop over chunks with a limit: it passes exactly the bodies within the limit, as they are, and where
it stands at a chunk its buffer is what came before, within the limit. -/
structure Bounded {ε : Type} (limit : ℕ) (error : ε)
    (read : List UInt8 → List (List UInt8) → Except ε (List UInt8)) (chunks : List (List UInt8)) : Prop where
  within : chunks.flatten.length ≤ limit → read [] chunks = .ok chunks.flatten
  beyond : limit < chunks.flatten.length → read [] chunks = .error error
  buffers : ∀ earlier later buffer, chunks = earlier ++ later → read [] earlier = .ok buffer →
    buffer = earlier.flatten ∧ buffer.length ≤ limit ∧ read [] chunks = read buffer later

lemma bounded_of_collect {ε : Type} {limit : ℕ} {error : ε} {fits : ℕ → ℕ → Bool} (hkeeps : Chunks.Keeps limit fits)
    {read : List UInt8 → List (List UInt8) → Except ε (List UInt8)}
    (hread : ∀ buffer chunks, read buffer chunks = Chunks.collect fits error buffer chunks)
    (chunks : List (List UInt8)) : Bounded limit error read chunks where
  within h := by
    rw [hread, Chunks.collect_eq error hkeeps chunks (Nat.zero_le _), List.nil_append, if_pos h]
  beyond h := by
    rw [hread, Chunks.collect_eq error hkeeps chunks (Nat.zero_le _), List.nil_append, if_neg (Nat.not_le.mpr h)]
  buffers earlier later buffer hsplit hbuffer := by
    rw [hread] at hbuffer
    obtain ⟨hcollected, hlimit⟩ := Chunks.length_le_of_collect error hkeeps (Nat.zero_le _) hbuffer
    refine ⟨hcollected, hlimit, ?_⟩
    rw [hread, hread, hsplit]
    exact Chunks.collect_append error earlier later hbuffer

lemma readChunks_bounded (provider : UpstreamSource) (chunks : List (List UInt8)) :
    Bounded UPSTREAM_BODY_LIMIT (oversized provider) (readChunks provider none) chunks :=
  bounded_of_collect providerLimit_keeps (readChunks_eq_collect provider) chunks

lemma readFeed_bounded (chunks : List (List UInt8)) :
    Bounded News.MAX_FEED_BYTES "RSS response exceeded size limit" (News.readFeed none) chunks :=
  bounded_of_collect feedLimit_keeps readFeed_eq_collect chunks

lemma decodeResponse_eq (P : Platform) (provider : UpstreamSource) {response : Response}
    (hsuccess : response.status.isSuccess = true) (hcomplete : response.interrupted = none)
    (hdeclared : ∀ size, response.contentLength = some size → size ≤ UPSTREAM_BODY_LIMIT) :
    decodeResponse P provider response =
      if response.chunks.flatten.length ≤ UPSTREAM_BODY_LIMIT then
        (P.parseJson response.chunks.flatten).mapError (.invalidJson provider)
      else .error (oversized provider) := by
  have hsize : response.contentLength.any (fun size => UPSTREAM_BODY_LIMIT < size) = false := by
    cases hlength : response.contentLength with
    | none => rfl
    | some size => simpa using hdeclared size hlength
  have hread := readChunks_bounded provider response.chunks
  unfold decodeResponse
  rw [hsuccess, hsize, hcomplete]
  simp only [Bool.not_true, Bool.false_eq_true, if_false]
  by_cases hlimit : response.chunks.flatten.length ≤ UPSTREAM_BODY_LIMIT
  · rw [hread.within hlimit, if_pos hlimit]
  · rw [hread.beyond (Nat.not_le.mp hlimit), if_neg hlimit]

lemma fetchFeed_eq (texts : News.ErrorTexts) {response : Response} (hsuccess : response.status.isSuccess = true)
    (hcomplete : response.interrupted = none) :
    News.fetchFeed texts (.ok response) =
      if response.chunks.flatten.length ≤ News.MAX_FEED_BYTES then News.decodeFeed texts response.chunks.flatten
      else .error "RSS response exceeded size limit" := by
  have hstatus : (400 ≤ response.status.code && response.status.code < 600) = false := by
    simp only [StatusCode.isSuccess, Bool.and_eq_true, decide_eq_true_eq] at hsuccess
    simp only [Bool.and_eq_false_iff, decide_eq_false_iff_not]
    omega
  have hread := readFeed_bounded response.chunks
  unfold News.fetchFeed
  dsimp only
  rw [hstatus, hcomplete]
  simp only [Bool.false_eq_true, if_false]
  by_cases hlimit : response.chunks.flatten.length ≤ News.MAX_FEED_BYTES
  · rw [hread.within hlimit, if_pos hlimit]
  · rw [hread.beyond (Nat.not_le.mp hlimit), if_neg hlimit]

/-- A complete and successful response passes both limits by the number of its bytes alone, and what passes is its
bytes. The buffers keep the limits at every chunk, so that the difference to the limit is never negative, and
responses with the same bytes in other chunks are treated alike. -/
theorem body_limit_law (P : Platform) (provider : UpstreamSource) (texts : News.ErrorTexts) {response : Response}
    (hsuccess : response.status.isSuccess = true) (hcomplete : response.interrupted = none) :
    let body := response.chunks.flatten
    let declared (response : Response) := ∀ size, response.contentLength = some size → size ≤ UPSTREAM_BODY_LIMIT
    (Bounded UPSTREAM_BODY_LIMIT (oversized provider) (readChunks provider none) response.chunks ∧
      (declared response → decodeResponse P provider response =
        if body.length ≤ UPSTREAM_BODY_LIMIT then (P.parseJson body).mapError (.invalidJson provider)
        else .error (oversized provider))) ∧
    (Bounded News.MAX_FEED_BYTES "RSS response exceeded size limit" (News.readFeed none) response.chunks ∧
      News.fetchFeed texts (.ok response) =
        if body.length ≤ News.MAX_FEED_BYTES then News.decodeFeed texts body
        else .error "RSS response exceeded size limit") ∧
    ∀ other : Response, other.status.isSuccess = true → other.interrupted = none → other.chunks.flatten = body →
      (declared response → declared other →
        decodeResponse P provider other = decodeResponse P provider response) ∧
      News.fetchFeed texts (.ok other) = News.fetchFeed texts (.ok response) := by
  intro body declared
  refine ⟨⟨readChunks_bounded provider _, decodeResponse_eq P provider hsuccess hcomplete⟩,
    ⟨readFeed_bounded _, fetchFeed_eq texts hsuccess hcomplete⟩, fun other hother hwhole hbytes => ⟨?_, ?_⟩⟩
  · intro hdeclared hdeclared'
    rw [decodeResponse_eq P provider hsuccess hcomplete hdeclared,
      decodeResponse_eq P provider hother hwhole hdeclared',
      hbytes]
  · rw [fetchFeed_eq texts hsuccess hcomplete, fetchFeed_eq texts hother hwhole, hbytes]

/-- The bytes `[]` in three chunks, one of them empty, and in one chunk. -/
theorem body_limit_law_split :
    let split : Response := ⟨⟨200, by decide⟩, none, none, [[91], [], [93]], none⟩
    let whole : Response := ⟨⟨200, by decide⟩, none, some 2, [[91, 93]], none⟩
    readChunks .kraken none [] split.chunks = .ok [91, 93] ∧
      decodeResponse .plain .kraken whole = decodeResponse .plain .kraken split := by
  intro split whole
  have hcomplete : split.interrupted = none := rfl
  have hlaw := body_limit_law .plain .kraken ⟨fun _ => "", fun _ => ""⟩ rfl hcomplete
  refine ⟨hlaw.1.1.within (by decide), (hlaw.2.2 whole rfl rfl rfl).1 ?_ ?_⟩
  · simp [split]
  · rintro size ⟨rfl⟩
    decide

end BitcoinPriceTracker
