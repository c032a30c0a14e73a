import DocCoverage.Source.Location

/-!
# Addresses

An address is counted by one walk over the elements in front of a location, and the lines of an
input are the pieces between its line feeds. Both agree on what a line is: in front of a location
stand whole lines, one fewer than its line number, and then the beginning of its own line. So every
address leads back to its location, and addresses are in the order of the locations.
-/

namespace DocCoverage

variable {ε : Type} [Element ε]

/-- The lines, each with the line feed that ends it. -/
def withFeeds (lines : List (List ε)) : List ε := lines.flatMap (· ++ [Element.lineFeed])

/-- The run is the lines of `above`, each with a line feed behind it, and then `begun`, the
beginning of one more line. -/
structure Lined (run : List ε) (above : List (List ε)) (begun : List ε) : Prop where
  whole : withFeeds above ++ begun = run
  ended : ∀ line ∈ above, Element.lineFeed ∉ line
  unbroken : Element.lineFeed ∉ begun

/-- The line of the location begins at `start`, which is the beginning of the input or stands right
behind a line feed, and no line feed stands between there and the location. -/
structure BeginsLine (location : Location ε) (start : Nat) : Prop where
  start_le : start ≤ location.position
  edge : start = 0 ∨ ∃ index < location.position,
    location.source[index]? = some Element.lineFeed ∧ start = index + 1
  unbroken : ∀ index, start ≤ index → index < location.position →
    location.source[index]? ≠ some Element.lineFeed

/-- The order of addresses: line by line, and within a line by the offset. -/
def Address.Before (first second : Address) : Prop :=
  first.line < second.line ∨ first.line = second.line ∧ first.offset < second.offset

/-- The lines above the address, a line feed for each of them, and the offset. -/
def Address.positionIn [DecidableEq ε] (source : List ε) (address : Address) : Nat :=
  ((splitLines source).take (address.line - 1)).flatten.length + (address.line - 1) + address.offset

section Feeds

variable {begun : List ε} {above : List (List ε)} {location : Location ε}

theorem withFeeds_cons (line : List ε) (above : List (List ε)) :
    withFeeds (line :: above) = line ++ [Element.lineFeed] ++ withFeeds above := rfl

theorem length_withFeeds (above : List (List ε)) :
    (withFeeds above).length = above.flatten.length + above.length := by
  induction above with
  | nil => rfl
  | cons line above ih =>
    simp only [withFeeds_cons, List.flatten_cons, List.length_append, List.length_cons, ih,
      List.length_nil]
    omega

/-- Lines that have ended have a line feed at their end. -/
theorem exists_withFeeds_eq (some : above ≠ []) :
    ∃ front, withFeeds above = front ++ [Element.lineFeed] := by
  induction above with
  | nil => exact absurd rfl some
  | cons line above ih =>
    by_cases last : above = []
    · exact ⟨line, by rw [last, withFeeds_cons]; exact List.append_nil _⟩
    · obtain ⟨front, shape⟩ := ih last
      exact ⟨line ++ [Element.lineFeed] ++ front,
        by rw [withFeeds_cons, shape, ← List.append_assoc]⟩

theorem Location.position_of_lined
    (lined : Lined (location.source.toList.take location.position) above begun) :
    above.flatten.length + above.length + begun.length + location.excess = location.position := by
  have length := congrArg List.length lined.whole
  simp only [List.length_append, length_withFeeds, List.length_take, Array.length_toList] at length
  unfold Location.excess
  omega

/-- The line that has begun in front of a location is the one of the location. -/
theorem beginsLine_of_lined
    (lined : Lined (location.source.toList.take location.position) above begun) :
    BeginsLine location (above.flatten.length + above.length) := by
  have position := Location.position_of_lined lined
  have length := length_withFeeds above
  refine ⟨by omega, ?_, fun index behind before feed => ?_⟩
  · by_cases first : above = []
    · subst first
      exact .inl rfl
    · obtain ⟨front, shape⟩ := exists_withFeeds_eq first
      have whole : location.source.toList = front ++
          Element.lineFeed :: (begun ++ location.source.toList.drop location.position) := by
        have split := (List.take_append_drop location.position location.source.toList).symm
        rwa [← lined.whole, shape, List.append_assoc, List.append_assoc] at split
      rw [shape, List.length_append, List.length_singleton] at length
      refine .inr ⟨front.length, by omega, ?_, length.symm⟩
      rw [← Array.getElem?_toList, whole, List.getElem?_append_right (Nat.le_refl _),
        Nat.sub_self, List.getElem?_cons_zero]
  · rw [← length] at behind
    rw [← Array.getElem?_toList, ← List.getElem?_take_of_lt before, ← lined.whole,
      List.getElem?_append_right behind] at feed
    exact lined.unbroken (List.mem_of_getElem? feed)

end Feeds

variable [DecidableEq ε]

section Lines

variable {run begun : List ε} {above : List (List ε)}

theorem exists_lined (run : List ε) : ∃ above begun, Lined run above begun := by
  induction run with
  | nil => exact ⟨[], [], rfl, by simp, by simp⟩
  | cons element run ih =>
    obtain ⟨above, begun, rfl, ended, unbroken⟩ := ih
    by_cases feed : element = Element.lineFeed
    · subst feed
      exact ⟨[] :: above, begun, rfl, List.forall_mem_cons.mpr ⟨by simp, ended⟩, unbroken⟩
    · have longer {line : List ε} (whole : Element.lineFeed ∉ line) :
          Element.lineFeed ∉ element :: line :=
        List.not_mem_cons_of_ne_of_not_mem (Ne.symm feed) whole
      cases above with
      | nil => exact ⟨[], element :: begun, rfl, by simp, longer unbroken⟩
      | cons line above =>
        obtain ⟨first, others⟩ := List.forall_mem_cons.mp ended
        exact ⟨(element :: line) :: above, begun, rfl,
          List.forall_mem_cons.mpr ⟨longer first, others⟩, unbroken⟩

theorem Lined.count_eq (lined : Lined run above begun) :
    run.count Element.lineFeed = above.length := by
  obtain ⟨rfl, ended, unbroken⟩ := lined
  rw [List.count_append, List.count_eq_zero.mpr unbroken]
  induction above with
  | nil => rfl
  | cons line above ih =>
    obtain ⟨first, others⟩ := List.forall_mem_cons.mp ended
    rw [withFeeds_cons, List.count_append, List.count_append, List.count_eq_zero.mpr first,
      List.count_singleton_self, List.length_cons, ← ih others]
    omega

/-- Within a line only the offset grows. -/
theorem foldl_advance_of_unbroken (unbroken : Element.lineFeed ∉ begun) (address : Address) :
    begun.foldl Address.advance address = ⟨address.line, address.offset + begun.length⟩ := by
  induction begun generalizing address with
  | nil => rfl
  | cons element begun ih =>
    obtain ⟨other, unbroken⟩ := List.ne_and_not_mem_of_not_mem_cons unbroken
    rw [List.foldl_cons, Address.advance, if_neg (Ne.symm other), ih unbroken, List.length_cons,
      Nat.add_assoc, Nat.add_comm 1]

theorem foldl_advance_line {line : List ε} (ended : Element.lineFeed ∉ line) (address : Address) :
    (line ++ [Element.lineFeed]).foldl Address.advance address = ⟨address.line + 1, 0⟩ := by
  rw [List.foldl_append, foldl_advance_of_unbroken ended]
  exact if_pos rfl

/-- The walk over the run comes as many lines further as there are line feeds. -/
theorem Lined.foldl_advance (lined : Lined run above begun) :
    run.foldl Address.advance Address.first = ⟨above.length + 1, begun.length⟩ := by
  obtain ⟨rfl, ended, unbroken⟩ := lined
  have lines (number : Nat) : (withFeeds above).foldl Address.advance
      ⟨number, 0⟩ = ⟨above.length + number, 0⟩ := by
    induction above generalizing number with
    | nil => rw [List.length_nil, Nat.zero_add]; rfl
    | cons line above ih =>
      obtain ⟨first, others⟩ := List.forall_mem_cons.mp ended
      rw [withFeeds_cons, List.foldl_append, foldl_advance_line first, ih others,
        List.length_cons, Nat.add_assoc, Nat.add_comm number]
  rw [List.foldl_append, Address.first, lines, foldl_advance_of_unbroken unbroken, Nat.zero_add]

theorem splitLines_append_of_unbroken (unbroken : Element.lineFeed ∉ begun) (rest : List ε) :
    splitLines (begun ++ rest) = (splitLines rest).modifyHead (begun ++ ·) := by
  induction begun with
  | nil => exact (congrFun List.modifyHead_id _).symm
  | cons element begun ih =>
    obtain ⟨other, unbroken⟩ := List.ne_and_not_mem_of_not_mem_cons unbroken
    have here : (element == Element.lineFeed) = false := beq_false_of_ne (Ne.symm other)
    rw [splitLines, List.cons_append, List.splitOn_cons_eq_if_modifyHead, here]
    exact (congrArg _ (ih unbroken)).trans (List.modifyHead_modifyHead ..)

/-- The lines of a text are the whole lines of a run that it begins with, and then the lines of the
rest, of which the first one has begun already. -/
theorem Lined.splitLines_append (lined : Lined run above begun) (rest : List ε) :
    splitLines (run ++ rest) = above ++ (splitLines rest).modifyHead (begun ++ ·) := by
  obtain ⟨rfl, ended, unbroken⟩ := lined
  induction above with
  | nil => exact splitLines_append_of_unbroken unbroken rest
  | cons line above ih =>
    obtain ⟨first, others⟩ := List.forall_mem_cons.mp ended
    have split := List.splitOn_append_cons_self_of_not_mem first
      (withFeeds above ++ begun ++ rest)
    have shape : withFeeds (line :: above) ++ begun ++ rest =
        line ++ Element.lineFeed :: (withFeeds above ++ begun ++ rest) := by
      simp only [withFeeds_cons, List.append_assoc, List.cons_append, List.nil_append]
    rw [shape]
    exact split.trans (congrArg (line :: ·) (ih others))

end Lines

section Locations

variable {location : Location ε} {begun : List ε} {above : List (List ε)}

theorem Location.address_of_lined
    (lined : Lined (location.source.toList.take location.position) above begun) :
    location.address = ⟨above.length + 1, begun.length + location.excess⟩ := by
  unfold Location.address
  rw [lined.foldl_advance]

/-- Every location is found again by its address. -/
theorem Location.positionIn_address (location : Location ε) :
    location.address.positionIn location.source.toList = location.position := by
  obtain ⟨above, begun, lined⟩ := exists_lined (location.source.toList.take location.position)
  have split := lined.splitLines_append (location.source.toList.drop location.position)
  rw [List.take_append_drop] at split
  rw [Location.address_of_lined lined, Address.positionIn, split, Nat.add_sub_cancel,
    List.take_left, ← Nat.add_assoc, Location.position_of_lined lined]

theorem Location.line_address (location : Location ε) :
    location.address.line =
      (location.source.toList.take location.position).count Element.lineFeed + 1 := by
  obtain ⟨above, begun, lined⟩ := exists_lined (location.source.toList.take location.position)
  rw [Location.address_of_lined lined, lined.count_eq]

theorem Location.exists_beginsLine (location : Location ε) :
    ∃ start, BeginsLine location start ∧ location.address.offset = location.position - start := by
  obtain ⟨above, begun, lined⟩ := exists_lined (location.source.toList.take location.position)
  refine ⟨_, beginsLine_of_lined lined, ?_⟩
  have position := Location.position_of_lined lined
  rw [Location.address_of_lined lined]
  dsimp only
  omega

/-- A later location is not on an earlier line, and on the same line it has a greater offset. -/
theorem Location.address_before {source : Array ε} {first second : Nat} (later : first < second) :
    (Location.mk source first).address.Before (Location.mk source second).address := by
  have one := (Location.mk source first).positionIn_address
  have two := (Location.mk source second).positionIn_address
  have lines :
      (Location.mk source first).address.line ≤ (Location.mk source second).address.line := by
    rw [Location.line_address, Location.line_address]
    have shorter := List.take_prefix_take_left (l := source.toList) (Nat.le_of_lt later)
    exact Nat.succ_le_succ (shorter.sublist.count_le _)
  rcases Nat.lt_or_eq_of_le lines with above | same
  · exact .inl above
  · refine .inr ⟨same, ?_⟩
    unfold Address.positionIn at one two
    rw [same] at one
    dsimp only at one two
    omega

end Locations

/-- The address is the one of the location: it is counted by the line feeds in front of the location
and from the last of them on, it leads back, and it stands in the order of the locations. -/
structure Address.Denotes (address : Address) (location : Location ε) : Prop where
  line : address.line =
    (location.source.toList.take location.position).count Element.lineFeed + 1
  offset : ∃ start, BeginsLine location start ∧ address.offset = location.position - start
  inverse : address.positionIn location.source.toList = location.position
  ordered : ∀ position, location.position < position →
    address.Before (Location.mk location.source position).address
  unshared : ∀ position, (Location.mk location.source position).address = address →
    position = location.position

theorem address_denotes (location : Location ε) : location.address.Denotes location where
  line := location.line_address
  offset := location.exists_beginsLine
  inverse := location.positionIn_address
  ordered _ later := Location.address_before later
  unshared position same := by
    have other := (Location.mk location.source position).positionIn_address
    rw [same, location.positionIn_address] at other
    exact other.symm

/-- Behind the last element the offset goes on, on a line of its own where a line feed is last. -/
example : (Location.mk #['a', '\n', 'b', '\n'] 6).address = ⟨3, 2⟩ := by decide

end DocCoverage
