import Rollout.Proofs.Json.Printed
import Rollout.Proofs.Offer.RoundTrip
import Rollout.Proofs.Snapshot.Nesting

/-! Snapshots and recommendations as JSON text.  Reading the text gives the document that was
written except that its entries stand in the order of their keys, so a value is kept when its
document has a text that can be read and when it is read from the entries in that order as well.
-/

namespace Rollout

namespace Json

def decode {α : Type} (read : Reader α) (text : String) : Option α :=
  (read? text).bind fun document => (read document).toOption

/-- Every value is found again in its document, and in both texts of it where the document is
nested below the limit.  One that was read from some other document, with its entries arranged
in another way or with more of them left out, is written and found again as well; and one that
was read from a text is found again in its own texts, which no limit keeps from being read. -/
structure Keeps {α : Type} (write : α → Document) (read : Reader α) : Prop where
  document : ∀ value, read (write value) = .ok value
  compact : ∀ value, (write value).nesting < nestingLimit →
    decode read (compact (write value)) = some value
  pretty : ∀ value, (write value).nesting < nestingLimit →
    decode read (pretty (write value)) = some value
  again : ∀ document value, read document = .ok value → read (write value) = .ok value ∧
    (document.nesting < nestingLimit → decode read (Json.compact (write value)) = some value ∧
      decode read (Json.pretty (write value)) = some value)
  reread : ∀ text value, decode read text = some value →
    decode read (Json.compact (write value)) = some value ∧
      decode read (Json.pretty (write value)) = some value

theorem decode_eq_some {α : Type} {read : Reader α} {text : String} {value : α}
    (found : decode read text = some value) :
    ∃ document, document.nesting < nestingLimit ∧ read document = .ok value := by
  obtain ⟨document, inText, ok⟩ := Option.bind_eq_some_iff.mp found
  refine ⟨document, nesting_lt_of_read? inText, ?_⟩
  cases outcome : read document with
  | ok held =>
      rw [outcome] at ok
      exact congrArg Except.ok (Option.some.inj ok)
  | error cause =>
      rw [outcome] at ok
      cases ok

theorem Keeps.of_writable {α : Type} {write : α → Document} {read : Reader α}
    (writable : ∀ value, Writable (write value)) (reads : ∀ value, read (write value) = .ok value)
    (inOrder : ∀ value, read (ordered (write value)) = .ok value)
    (shallow : ∀ document value, document.nesting < nestingLimit → read document = .ok value →
      (write value).nesting < nestingLimit) : Keeps write read := by
  have compact : ∀ value, (write value).nesting < nestingLimit →
      decode read (Json.compact (write value)) = some value := by
    intro value fits
    rw [decode, (read?_compact_iff (writable value)).mpr fits, Option.bind_some, inOrder value]
    rfl
  have pretty : ∀ value, (write value).nesting < nestingLimit →
      decode read (Json.pretty (write value)) = some value := by
    intro value fits
    rw [decode, (read?_pretty_iff (writable value)).mpr fits, Option.bind_some, inOrder value]
    rfl
  refine ⟨reads, compact, pretty, ?_, ?_⟩
  · intro document value ok
    refine ⟨reads value, fun below => ?_⟩
    have fits := shallow document value below ok
    exact ⟨compact value fits, pretty value fits⟩
  · intro text value found
    obtain ⟨document, below, ok⟩ := decode_eq_some found
    have fits := shallow document value below ok
    exact ⟨compact value fits, pretty value fits⟩

end Json

theorem Snapshot.kept : Json.Keeps Snapshot.toDocument (Snapshot.read .json) :=
  .of_writable writable_toDocument (read_toDocument .json) (read_ordered .json)
    fun _ _ below ok => Nat.lt_of_le_of_lt (nesting_of_readWithin ok) below

theorem Recommendation.kept : Json.Keeps Recommendation.toDocument Recommendation.read := by
  refine .of_writable writable_toDocument read_toDocument (fun recommendation => ?_)
    fun _ recommendation _ _ => ?_
  · have writable := recommendation.writable_toDocument
    have read := recommendation.read_toDocument
    cases recommendation
    all_goals exact Recommendation.read_ordered writable read
  · exact Nat.lt_of_le_of_lt recommendation.nesting_toDocument_le (by decide)

/-- Snapshots and recommendations are kept by their JSON documents at any depth, and by the texts
of these below the limit.  Recommendations and trees of fewer than 64 levels, as those of plans
are, are nested below it.  The keys of a node are the fields that have something in them, and no
node of a tree has an entry that is null or an empty list. -/
theorem Json.keeps_snapshots_and_recommendations :
    Keeps Snapshot.toDocument (Snapshot.read .json) ∧
      Keeps Recommendation.toDocument Recommendation.read ∧
      (∀ recommendation : Recommendation, recommendation.toDocument.nesting < nestingLimit) ∧
      (∀ snapshot : Snapshot, snapshot.height < 64 →
        snapshot.toDocument.nesting < nestingLimit) ∧
      (∀ (plan : Plan Step) (arrangement : Arrangement),
        (plan.snapshot arrangement).height ≤ 3) ∧
      ∀ snapshot : Snapshot, Snapshot.Trimmed snapshot.toDocument ∧
        ∃ entries, snapshot.toDocument = .table entries ∧
          entries.map (·.1) = Snapshot.shape.fields.filter snapshot.fills := by
  refine ⟨Snapshot.kept, Recommendation.kept, ?_, ?_, Snapshot.height_snapshot_le, ?_⟩
  · exact fun recommendation =>
      Nat.lt_of_le_of_lt recommendation.nesting_toDocument_le (by decide)
  · intro snapshot low
    have nested := snapshot.nesting_toDocument_le
    rw [nestingLimit]
    omega
  intro snapshot
  refine ⟨snapshot.trimmed_toDocument, ?_⟩
  cases snapshot with
  | node name status strategy errors children tasks =>
      exact ⟨_, Snapshot.toDocument_node name status strategy errors children tasks,
        Snapshot.keys_content name status strategy errors children tasks⟩

/-- A plan with an invalid step beside one with a launched task. -/
theorem Json.keeps_invalid_step :
    let server : TaskSnapshot := ⟨"index-0-server", "index-0-server__1", .starting⟩
    let steps : List Snapshot := [
      .node "index-0:[server]" .starting none [] [] [server],
      .node "index-1:[]" .error none ["pod 'index' defines no tasks"] [] []]
    let phase : Snapshot := .node "index" .error (some .serial) [] steps []
    let snapshot : Snapshot := .node "deploy" .error (some .serial) [] [phase] []
    snapshot.height < 64 ∧
      Json.decode (Snapshot.read .json) (Json.pretty snapshot.toDocument) = some snapshot := by
  intro server steps phase snapshot
  have low : snapshot.height < 64 := by decide
  obtain ⟨snapshots, _, _, fits, _⟩ := Json.keeps_snapshots_and_recommendations
  exact ⟨low, snapshots.pretty snapshot (fits snapshot low)⟩

example : (Snapshot.node "deploy" .pending (some .serial) [] [] []).toDocument =
    .table [("name", .text "deploy"), ("status", .text "PENDING"), ("strategy", .text "serial")] :=
  rfl

end Rollout
