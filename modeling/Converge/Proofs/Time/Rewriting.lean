import Converge.Proofs.Schema.LeafForm
import Converge.Proofs.Schema.LeafWire
import Converge.Proofs.Time.Timestamp
import Converge.Proofs.Time.Universal

/-
  Timestamps that are read and written again.

  Whatever spelling a timestamp was read from, it can be
  written, and it is the same timestamp that is read again,
  in trees and on the wire as well. Two timestamps are
  compared as the times in UTC that they stand for; they are
  written alike when their offsets agree besides.

  Main declarations:
    * `Timestamp.text_eq_iff`
    * `Timestamp.rewriting_stable`
-/

namespace Converge

namespace Timestamp

/- What is written tells the instant and the offset, and
   nothing else. -/
theorem text_eq_iff {left right : Timestamp} :
    left.text = right.text ↔
      left.instant = right.instant ∧
        left.offset = right.offset := by
  constructor
  · intro h
    have hRead := read?_text left
    rw [h, read?_text] at hRead
    cases hRead
    exact ⟨rfl, rfl⟩
  · rintro ⟨hInstant, hOffset⟩
    rw [eq_of_instant hInstant hOffset]

/-
  A text that is read as a timestamp follows the grammar. The
  timestamp has a year and an offset that the written form
  has room for, and its written form follows the grammar too.
  Reading that again, as a text or as the leaf of a tree or
  of the wire, keeps instant, offset and nanosecond, and so
  the written form. Timestamps are equal and ordered as their
  instants are, which is to say, by date and time of day in
  UTC.
-/
theorem rewriting_stable
    {text : String}
    {time : Timestamp}
    (hRead : read? text = some time) :
    time.IsSpelledBy text ∧
      (time.year ≤ 9999 ∧ time.offset.natAbs ≤ 23 * 60 + 59 ∧
        time.IsSpelledBy time.text) ∧
      (∃ again,
        read? time.text = some again ∧
          again.instant = time.instant ∧
          again.offset = time.offset ∧
          again.nanosecond = time.nanosecond ∧
          again.text = time.text) ∧
      (∀ path,
        Leaf.timestamp.expand path
            (Leaf.timestamp.flatten (some time)) =
          .ok (some time)) ∧
      Leaf.timestamp.decode?
          (Leaf.timestamp.encode (some time)) =
        some (some time) ∧
      ∀ other : Timestamp,
        (sameInstant time other = true ↔
          time.instant = other.instant) ∧
        (compareInstants time other = .lt ↔
          time.instant < other.instant) ∧
        (compareInstants time other = .gt ↔
          other.instant < time.instant) ∧
        (time.instant = other.instant ↔
          time.universal = other.universal) ∧
        (time.instant < other.instant ↔
          time.universal.Before other.universal) ∧
        (time.text = other.text ↔
          time.instant = other.instant ∧
            time.offset = other.offset) := by
  have hYear := time.year_lt
  have hLower := time.lt_offset
  have hUpper := time.offset_lt
  refine ⟨read?_eq_some_iff.1 hRead,
    ⟨by omega, by omega, time.isSpelledBy_text⟩,
    ⟨time, read?_text time, rfl, rfl, rfl, rfl⟩, ?_, ?_, ?_⟩
  · intro path
    exact Leaf.expand_flatten_timestamp path (some time)
  · exact Leaf.decode?_encode .timestamp (some time)
  · intro other
    exact ⟨decide_eq_true_iff, Int.compare_eq_lt,
      Int.compare_eq_gt, instant_eq_iff, instant_lt_iff,
      text_eq_iff⟩

/- A second numbered sixty west of UTC, at the end of 2016
   there, and the instant that it stands for where it is 2017
   already. -/
theorem rewriting_stable_leap :
    ∃ time other,
      read? "2016-12-31T18:59:60.25-05:00" = some time ∧
        read? "2017-01-01 05:29:59.9999999999+05:30" =
          some other ∧
        time.text = "2016-12-31T18:59:59.999999999-05:00" ∧
        (∃ again,
          read? time.text = some again ∧
            again.instant = time.instant ∧
            again.text = time.text) ∧
        sameInstant time other = true ∧
        time.text ≠ other.text := by
  have hText :
      (read? "2016-12-31T18:59:60.25-05:00").map text =
        some "2016-12-31T18:59:59.999999999-05:00" := by
    decide
  have hOtherText :
      (read? "2017-01-01 05:29:59.9999999999+05:30").map text =
        some "2017-01-01T05:29:59.999999999+05:30" := by
    decide
  have hInstants :
      (read? "2016-12-31T18:59:60.25-05:00").map instant =
        (read? "2017-01-01 05:29:59.9999999999+05:30").map
          instant := by
    decide
  rcases Option.map_eq_some_iff.1 hText with
    ⟨time, hRead, hWritten⟩
  rcases Option.map_eq_some_iff.1 hOtherText with
    ⟨other, hOther, hOtherWritten⟩
  rw [hRead, hOther] at hInstants
  rcases rewriting_stable hRead with
    ⟨-, -, ⟨again, hAgain, hInstant, -, -, hSame⟩, -, -,
      hOrder⟩
  have hEqual :=
    (hOrder other).1.2 (Option.some.inj hInstants)
  refine ⟨time, other, hRead, hOther, hWritten,
    ⟨again, hAgain, hInstant, hSame⟩, hEqual, ?_⟩
  rw [hWritten, hOtherWritten]
  decide

end Timestamp

end Converge
