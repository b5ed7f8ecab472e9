import Stencil.Proofs.Files.WellFormed
import Stencil.Proofs.Path.Routes

/-!
# Walking one name further

Where a path leads says where the path with one more name behind it leads. If the path leads to a
directory, the walk goes on there, with as many links as it has left; if not, the longer path leads
nowhere (`walk_append_name`, by induction on the links and then on the pieces).

For a resolved base and a route of names below it this reads: what a route leads to is an entry of the
directory that the route without its last name leads to (`exists_parent_of_find`), and an entry that is
no link is found in its own place or its path is refused (`find_child`).
-/

namespace Stencil

namespace Files

/-- A valid name is one that stands for itself in a path. -/
theorem Name.Valid.isName {name : Name} (h : name.Valid) : Path.IsName name := by
  obtain ⟨hempty, hdot, hup, hslash, -⟩ := h
  refine ⟨?_, hup, hslash⟩
  unfold Path.isIdle
  simp [hempty, hdot]

section Walk

variable {root : Node}

/-! ## One more name -/

/-- An idle piece says nothing, wherever it stands. -/
theorem walkPieces_idle {aim : Aim} {again : Location → List Name → Except Fault Place}
    {piece : Name} (hpiece : Path.isIdle piece = true) (location : Location) (rest : List Name) :
    walkPieces root aim again location (piece :: rest) =
      walkPieces root aim again location rest := by
  rw [walkPieces]
  split
  · simp only [hpiece, if_true]
  · rename_i hnone
    cases rest <;> simp only [walkPieces, hnone]
  · rename_i hnone
    cases rest <;> simp only [walkPieces, hnone]

/-- A piece that says nothing is passed over. -/
theorem walk_idle {aim : Aim} {links : Nat} {piece : Name} (hpiece : Path.isIdle piece = true)
    (location : Location) (rest : List Name) :
    walk root aim links location (piece :: rest) = walk root aim links location rest := by
  cases links with
  | zero => exact walkPieces_idle hpiece location rest
  | succ links => exact walkPieces_idle hpiece location rest

/-- Every walk is one along pieces, with something to do at a link. -/
theorem walk_eq_walkPieces (root : Node) (links : Nat) :
    ∃ again, walk root .look links = walkPieces root .look again := by
  cases links with
  | zero => exact ⟨_, rfl⟩
  | succ links => exact ⟨_, rfl⟩

/-- A last name is looked up in its directory, and a link there is followed. -/
theorem walkPieces_name {again : Location → List Name → Except Fault Place} {location : Location}
    {entries : List (Name × Node)} (h : root.descend? location = some (.directory entries))
    {name : Name} (hname : Path.IsName name) :
    walkPieces root .look again location [name] =
      if longestName < byteLength name then .error .invalidName
      else
        match entries.lookup name with
        | some (.link target) =>
          if target = [] then .error .notFound
          else again (startOf location target) (Path.segments target)
        | node => .ok (.entry location name false node) := by
  unfold walkPieces
  rw [h]
  simp only [hname.notIdle, hname.notUp, Bool.false_eq_true, if_false, List.all_nil,
    List.isEmpty_nil, Bool.not_true, Bool.and_false, Bool.false_and, if_true, Aim.follows,
    List.append_nil]
  -- a name that is too long is refused before the directory is looked at
  split
  · rfl
  · cases entries.lookup name with
    | none => rfl
    | some node => cases node <;> rfl

/-- Behind an entry that is no link the walk goes on in its place, unless its name is refused or only
slashes are left. -/
theorem walkPieces_entry {again : Location → List Name → Except Fault Place} {location : Location}
    {entries : List (Name × Node)} (h : root.descend? location = some (.directory entries))
    {name : Name} (hidle : Path.isIdle name = false) (hup : name ≠ ['.', '.']) {node : Node}
    (hentry : entries.lookup name = some node) (hlink : ∀ target, node ≠ .link target)
    (rest : List Name) :
    walkPieces root .look again location (name :: rest) =
      if longestName < byteLength name then .error .invalidName
      else if rest.all (· = []) then .ok (.entry location name (!rest.isEmpty) (some node))
      else walkPieces root .look again (location ++ [name]) rest := by
  conv_lhs => unfold walkPieces
  rw [h]
  simp only [hidle, hup, Bool.false_eq_true, if_false, decide_false, Bool.and_false, reduceCtorEq,
    hentry]

/-- An entry that is no link is where it is, unless its name is refused. -/
theorem walk_entry {links : Nat} {location : Location} {entries : List (Name × Node)}
    (h : root.descend? location = some (.directory entries)) {name : Name}
    (hname : Path.IsName name) {node : Node} (hentry : entries.lookup name = some node)
    (hlink : ∀ target, node ≠ .link target) :
    walk root .look links location [name] =
      if longestName < byteLength name then .error .invalidName
      else .ok (.entry location name false (some node)) := by
  obtain ⟨again, hagain⟩ := walk_eq_walkPieces root links
  rw [hagain, walkPieces_entry h hname.notIdle hname.notUp hentry hlink]
  rfl

/-- What a name leads to is an entry, or an entry leads there. -/
theorem exists_entry_of_walk {links : Nat} {location : Location} {entries : List (Name × Node)}
    (h : root.descend? location = some (.directory entries)) {name : Name}
    (hname : Path.IsName name) {found : Location × Node}
    (hwalk : (walk root .look links location [name]).bind Place.node? = .ok found) :
    ∃ node, entries.lookup name = some node := by
  obtain ⟨again, hagain⟩ := walk_eq_walkPieces root links
  rw [hagain, walkPieces_name h hname] at hwalk
  cases hentry : entries.lookup name with
  | some node => exact ⟨node, rfl⟩
  | none =>
    rw [hentry] at hwalk
    split at hwalk <;> cases hwalk

/-- The walk to a directory goes on in it, and the walk to anything else ends. -/
def GoesOn (root : Node) (name : Name) (short long : Except Fault Place) : Prop :=
  (∃ location entries links, short.bind Place.node? = .ok (location, .directory entries) ∧
    long = walk root .look links location [name]) ∨
  (∀ location entries, short.bind Place.node? ≠ .ok (location, .directory entries)) ∧
    ∃ fault, long = .error fault

/-- A walk that failed fails also with more to walk, if maybe for another reason. -/
theorem goesOn_error {name : Name} (fault fault' : Fault) :
    GoesOn root name (.error fault) (.error fault') := by
  refine .inr ⟨fun location entries h => ?_, fault', rfl⟩
  cases h

/-- Slashes behind a directory lead into it. -/
theorem walkPieces_slashes {again : Location → List Name → Except Fault Place} {slashes : List Name}
    (h : slashes.all (· = []) = true) (location : Location) (name : Name) :
    walkPieces root .look again location (slashes ++ [name]) =
      walkPieces root .look again location [name] := by
  induction slashes with
  | nil => rfl
  | cons piece rest ih =>
    simp only [List.all_cons, Bool.and_eq_true, decide_eq_true_eq] at h
    rw [List.cons_append, h.1, walkPieces_idle rfl, ih h.2]

section GoesOn

variable (links : Nat) {again : Location → List Name → Except Fault Place}
  (hwalk : walk root .look links = walkPieces root .look again) {name : Name}
  (hname : Path.IsName name)

include hwalk hname

/-- A name on the way is looked up, and the walk goes on behind the entry. -/
theorem goesOn_name
    (hagain : ∀ location pieces,
      GoesOn root name (again location pieces) (again location (pieces ++ [name])))
    {rest : List Name}
    (hrest : ∀ location, GoesOn root name (walkPieces root .look again location rest)
      (walkPieces root .look again location (rest ++ [name])))
    {location : Location} {entries : List (Name × Node)}
    (hdescend : root.descend? location = some (.directory entries)) {piece : Name}
    (hidle : Path.isIdle piece = false) (hup : piece ≠ ['.', '.']) :
    GoesOn root name (walkPieces root .look again location (piece :: rest))
      (walkPieces root .look again location (piece :: (rest ++ [name]))) := by
  have hne : name ≠ [] := by
    rintro rfl
    cases hname.notIdle
  have hlast : (rest ++ [name]).all (· = []) = false := by simp [hne]
  unfold walkPieces
  simp only [hdescend, hidle, hup, hlast, Bool.false_and, Bool.false_eq_true,
    if_false, decide_false, Bool.and_false, reduceCtorEq]
  split
  · exact goesOn_error _ _
  cases hentry : entries.lookup piece with
  | none =>
    -- nothing is there: the shorter path leads to no entry
    simp only
    split
    · refine .inr ⟨fun location entries h => ?_, .notFound, rfl⟩
      cases h
    · exact goesOn_error _ _
  | some next =>
    have hnext : root.descend? (location ++ [piece]) = some next := by
      rw [Node.descend?_entry hdescend, hentry]
    cases next with
    | link target =>
      simp only [Aim.follows, Bool.not_true, Bool.and_false, Bool.false_eq_true, if_false]
      split
      · exact goesOn_error _ _
      · rw [← List.append_assoc]
        exact hagain _ _
    | file content =>
      simp only
      split
      · -- the shorter path leads to a file
        rename_i hslashes
        rw [walkPieces_slashes hslashes, walkPieces, hnext]
        refine .inr ⟨fun location entries h => ?_, .notADirectory, rfl⟩
        simp only [Except.bind, Place.node?] at h
        split at h <;> cases h
      · exact hrest _
    | directory more =>
      simp only
      split
      · rename_i hslashes
        rw [walkPieces_slashes hslashes]
        refine .inl ⟨location ++ [piece], more, links, ?_, by rw [hwalk]⟩
        simp [Except.bind, Place.node?, Node.isDirectory]
      · exact hrest _

/-- If walking on behind a link goes on like this, so does walking along pieces: a walk with one
more name is the shorter one and a step. -/
theorem goesOn_walkPieces
    (hagain : ∀ location pieces,
      GoesOn root name (again location pieces) (again location (pieces ++ [name])))
    (location : Location) (pieces : List Name) :
    GoesOn root name (walkPieces root .look again location pieces)
      (walkPieces root .look again location (pieces ++ [name])) := by
  -- by the pieces: at the end the added name is walked, and before that both walks do the same step
  induction pieces generalizing location with
  | nil =>
    cases hdescend : root.descend? location with
    | none =>
      simp only [List.nil_append, walkPieces, hdescend]
      exact goesOn_error _ _
    | some node =>
      cases node with
      | directory entries =>
        refine .inl ⟨location, entries, links, ?_, by rw [hwalk]; rfl⟩
        simp only [walkPieces, hdescend]
        rfl
      | file content =>
        simp only [List.nil_append, walkPieces, hdescend]
        exact goesOn_error _ _
      | link target =>
        simp only [List.nil_append, walkPieces, hdescend]
        exact goesOn_error _ _
  | cons piece rest ih =>
    rw [List.cons_append]
    cases hdescend : root.descend? location with
    | none =>
      simp only [walkPieces, hdescend]
      exact goesOn_error _ _
    | some node =>
      cases node with
      | file content =>
        simp only [walkPieces, hdescend]
        exact goesOn_error _ _
      | link target =>
        simp only [walkPieces, hdescend]
        exact goesOn_error _ _
      | directory entries =>
        cases hidle : Path.isIdle piece with
        | true =>
          rw [walkPieces_idle hidle, walkPieces_idle hidle]
          exact ih location
        | false =>
          by_cases hup : piece = ['.', '.']
          · simp only [walkPieces, hdescend, hidle, Bool.false_eq_true, if_false, if_pos hup]
            exact ih location.dropLast
          · exact goesOn_name links hwalk hname hagain ih hdescend hidle hup

end GoesOn

/-- **One more name.** By induction on the links that may still be followed. -/
theorem walk_append_name (root : Node) {name : Name} (hname : Path.IsName name) (links : Nat)
    (location : Location) (pieces : List Name) :
    GoesOn root name (walk root .look links location pieces)
      (walk root .look links location (pieces ++ [name])) := by
  induction links generalizing location pieces with
  | zero => exact goesOn_walkPieces 0 rfl hname (fun _ _ => goesOn_error _ _) _ _
  | succ links ih => exact goesOn_walkPieces (links + 1) rfl hname ih _ _

end Walk

/-- The system refuses a path that is too long, or one of whose pieces is. -/
def TooLong (p : Path) : Prop :=
  longestPath < byteLength p ∨ ∃ piece ∈ Path.segments p, longestName < byteLength piece

end Files

namespace FileSystem

open Files

variable {fs : FileSystem}

/-! ## Routes from a resolved base -/

/-- What stands in front of the first name is idle, and so is the whole of the root. -/
theorem walk_segments_rooted {names : List Name} (h : ∀ name ∈ names, Path.IsName name) (root : Node)
    (aim : Aim) (links : Nat) (location : Location) :
    walk root aim links location (Path.segments (⟨true, 0, names⟩ : Path.Lexical).toPath) =
      walk root aim links location names := by
  show walk _ _ _ _ (Path.segments ('/' :: Path.joined names)) = _
  rw [Path.segments_slash_cons, walk_idle rfl]
  cases names with
  | nil => exact walk_idle rfl location []
  | cons name rest => rw [Path.segments_joined (by simp) fun name hname => (h name hname).noSlash]

/-- A path of names from the root is refused for what it is written with, or walked name by name. -/
theorem find_rooted {names : List Name} (h : ∀ name ∈ names, Path.IsName name) :
    fs.find (⟨true, 0, names⟩ : Path.Lexical).toPath =
      if '\x00' ∈ (⟨true, 0, names⟩ : Path.Lexical).toPath then .error .invalidInput
      else if longestPath < byteLength (⟨true, 0, names⟩ : Path.Lexical).toPath then
        .error .invalidName
      else (walk fs.root .look linkLimit [] names).bind Place.node? := by
  have habsolute : Path.isAbsolute (⟨true, 0, names⟩ : Path.Lexical).toPath = true := rfl
  have hne : (⟨true, 0, names⟩ : Path.Lexical).toPath ≠ [] := by
    intro hnil
    rw [hnil] at habsolute
    cases habsolute
  unfold find place
  rw [if_neg hne]
  split
  · rfl
  split
  · rfl
  show (walk _ _ _ _ (Path.segments (⟨true, 0, names⟩ : Path.Lexical).toPath)).bind _ = _
  rw [walk_segments_rooted h]

/-- One more name goes behind a slash; that of the root is there already. -/
theorem rooted_append (names : List Name) (name : Name) :
    ∃ slash : List Char, (slash = [] ∨ slash = ['/']) ∧
      (⟨true, 0, names ++ [name]⟩ : Path.Lexical).toPath =
        (⟨true, 0, names⟩ : Path.Lexical).toPath ++ (slash ++ name) := by
  cases names with
  | nil => exact ⟨[], .inl rfl, rfl⟩
  | cons first rest =>
    refine ⟨['/'], .inr rfl, ?_⟩
    show '/' :: Path.joined (first :: rest ++ [name]) = '/' :: Path.joined (first :: rest) ++ _
    rw [Path.joined_append (by simp) (by simp)]
    rfl

theorem byteLength_append (a b : List Char) : byteLength (a ++ b) = byteLength a + byteLength b := by
  unfold byteLength
  rw [String.ofList_append, String.utf8ByteSize_append]

/-- The bytes of names with a slash in front of each. -/
def slashedLength : List Name → Nat
  | [] => 0
  | name :: rest => byteLength name + 1 + slashedLength rest

/-- The text of a path of names is as long as its names with a separator each. -/
theorem byteLength_rooted {names : List Name} (hne : names ≠ []) :
    byteLength (⟨true, 0, names⟩ : Path.Lexical).toPath = slashedLength names := by
  induction names with
  | nil => exact absurd rfl hne
  | cons name rest ih =>
    have hslash : byteLength ['/'] = 1 := rfl
    -- the last name has no separator behind it
    cases rest with
    | nil =>
      show byteLength (['/'] ++ name) = _
      rw [byteLength_append, hslash, Nat.add_comm]
      rfl
    | cons next more =>
      have hrest := ih (by simp)
      show byteLength (['/'] ++ (name ++ (⟨true, 0, next :: more⟩ : Path.Lexical).toPath)) = _
      have hsum : slashedLength (name :: next :: more) =
          byteLength name + 1 + slashedLength (next :: more) := rfl
      rw [byteLength_append, byteLength_append, hslash, hrest, hsum]
      omega

section Rooted

variable {names : List Name} (hnames : ∀ name ∈ names, Path.IsName name)

include hnames

/-- What is found is in the tree, and it is not a link, since the last link is followed too. -/
theorem inTree_of_find_rooted {location : Location} {node : Node}
    (h : fs.find (⟨true, 0, names⟩ : Path.Lexical).toPath = .ok (location, node)) :
    fs.root.descend? location = some node ∧ ∀ target, node ≠ .link target := by
  rw [find_rooted hnames] at h
  split at h
  · cases h
  split at h
  · cases h
  cases hwalk : walk fs.root .look linkLimit [] names with
  | error fault =>
    rw [hwalk] at h
    cases h
  | ok place =>
    rw [hwalk] at h
    obtain ⟨hdescend, hlink⟩ := (inTree_walk hwalk).descend? h
    exact ⟨hdescend, hlink rfl⟩

theorem segments_rooted (hne : names ≠ []) :
    Path.segments (⟨true, 0, names⟩ : Path.Lexical).toPath = [] :: names := by
  show Path.segments ('/' :: Path.joined names) = _
  rw [Path.segments_slash_cons,
    Path.segments_joined hne fun name hname => (hnames name hname).noSlash]

/-- A path that is too long does not become shorter with one more name. -/
theorem tooLong_rooted_append {name : Name} (hname : Path.IsName name)
    (h : TooLong (⟨true, 0, names⟩ : Path.Lexical).toPath) :
    TooLong (⟨true, 0, names ++ [name]⟩ : Path.Lexical).toPath := by
  -- a path that is too long gets longer; a name that is too long stays in it
  rcases h with h | ⟨piece, hpiece, hlong⟩
  · obtain ⟨slash, -, happend⟩ := rooted_append names name
    rw [TooLong, happend, byteLength_append]
    exact .inl (Nat.lt_add_right _ h)
  · refine .inr ⟨piece, ?_, hlong⟩
    have hlonger : ∀ other ∈ names ++ [name], Path.IsName other :=
      List.forall_mem_append.2 ⟨hnames, by simpa using hname⟩
    rw [segments_rooted hlonger (by simp)]
    by_cases hnil : names = []
    · -- the pieces of the root are empty
      subst hnil
      have hempty : piece = [] := by simpa [Path.Lexical.toPath, Path.joined, Path.segments] using hpiece
      rw [hempty]
      exact List.mem_cons_self
    · rw [segments_rooted hnames hnil] at hpiece
      exact List.mem_append_left [name] hpiece

variable {name : Name} (hname : name.Valid)

include hname

/-- A path with one more name is refused as a whole, or it goes on where the path leads. -/
theorem find_rooted_append :
    (∃ fault, fs.find (⟨true, 0, names ++ [name]⟩ : Path.Lexical).toPath = .error fault ∧
      (fault = .invalidName ∧
          longestPath < byteLength (⟨true, 0, names ++ [name]⟩ : Path.Lexical).toPath ∨
        ∀ location entries,
          fs.find (⟨true, 0, names⟩ : Path.Lexical).toPath ≠ .ok (location, .directory entries))) ∨
    ∃ location entries links,
      fs.find (⟨true, 0, names⟩ : Path.Lexical).toPath = .ok (location, .directory entries) ∧
      fs.find (⟨true, 0, names ++ [name]⟩ : Path.Lexical).toPath =
        (walk fs.root .look links location [name]).bind Place.node? := by
  have hlonger : ∀ other ∈ names ++ [name], Path.IsName other :=
    List.forall_mem_append.2 ⟨hnames, by simpa using hname.isName⟩
  obtain ⟨slash, hslash, happend⟩ := rooted_append names name
  have hlength : byteLength (⟨true, 0, names⟩ : Path.Lexical).toPath ≤
      byteLength (⟨true, 0, names ++ [name]⟩ : Path.Lexical).toPath := by
    rw [happend, byteLength_append]
    exact Nat.le_add_right _ _
  rw [find_rooted hlonger, find_rooted hnames]
  split
  · -- not in the name, so in front of it
    rename_i hnul
    have hfront : '\x00' ∈ (⟨true, 0, names⟩ : Path.Lexical).toPath := by
      rw [happend, List.mem_append, List.mem_append] at hnul
      rcases hnul with hnul | hnul | hnul
      · exact hnul
      · rcases hslash with rfl | rfl
        · cases hnul
        · exact absurd hnul (by decide)
      · exact absurd hnul hname.2.2.2.2
    refine .inl ⟨_, rfl, .inr fun location entries h => ?_⟩
    rw [if_pos hfront] at h
    cases h
  rename_i hnul
  split
  · rename_i hlong
    exact .inl ⟨_, rfl, .inl ⟨rfl, hlong⟩⟩
  rename_i hshort
  have hfront : '\x00' ∉ (⟨true, 0, names⟩ : Path.Lexical).toPath := fun hmem =>
    hnul (happend ▸ List.mem_append_left _ hmem)
  rw [if_neg hfront, if_neg fun hlong => hshort (by omega)]
  obtain ⟨location, entries, links, hshorter, hlong⟩ | ⟨hshorter, fault, hlong⟩ :=
    walk_append_name fs.root hname.isName linkLimit [] names
  · exact .inr ⟨location, entries, links, hshorter, by rw [hlong]⟩
  · exact .inl ⟨fault, by rw [hlong]; rfl, .inr hshorter⟩

end Rooted

section Route

variable {base : Path} (hbase : Path.IsResolved base) {route : List Name}
  (hroute : ∀ name ∈ route, name.Valid)

include hbase hroute

/-- One name that is too long makes the path too long for the operating system. -/
theorem tooLong_along_of_mem {name : Name} (hmem : name ∈ route)
    (hlong : longestName < byteLength name) : TooLong (Path.along base route) := by
  obtain ⟨names, hnames, rfl⟩ := hbase.exists_names
  have hisName : ∀ name ∈ route, Path.IsName name := fun name hname => (hroute name hname).isName
  refine .inr ⟨name, ?_, hlong⟩
  rw [Path.along_toPath hnames hisName,
    segments_rooted (List.forall_mem_append.2 ⟨hnames, hisName⟩) (by simp [List.ne_nil_of_mem hmem])]
  simp [hmem]

/-- What is found is in the tree, and it is no link. -/
theorem inTree_of_find {location : Location} {node : Node}
    (h : fs.find (Path.along base route) = .ok (location, node)) :
    fs.root.descend? location = some node ∧ ∀ target, node ≠ .link target := by
  obtain ⟨names, hnames, rfl⟩ := hbase.exists_names
  have hisName : ∀ name ∈ route, Path.IsName name := fun name hname => (hroute name hname).isName
  rw [Path.along_toPath hnames hisName] at h
  exact inTree_of_find_rooted (List.forall_mem_append.2 ⟨hnames, hisName⟩) h

variable {name : Name} (hname : name.Valid)

include hname

/-- What lies below a path that is too long is too long. -/
theorem tooLong_along_append (h : TooLong (Path.along base route)) :
    TooLong (Path.along base (route ++ [name])) := by
  obtain ⟨names, hnames, rfl⟩ := hbase.exists_names
  have hisName : ∀ name ∈ route, Path.IsName name := fun name hname => (hroute name hname).isName
  have hlonger : ∀ other ∈ route ++ [name], Path.IsName other :=
    List.forall_mem_append.2 ⟨hisName, by simpa using hname.isName⟩
  rw [Path.along_toPath hnames hisName] at h
  rw [Path.along_toPath hnames hlonger, ← List.append_assoc]
  exact tooLong_rooted_append (List.forall_mem_append.2 ⟨hnames, hisName⟩) hname.isName h

variable (fs) in
/-- A path with one more name is refused, or it is found from the directory that the shorter path
leads to. -/
theorem find_along_append :
    (∃ fault, fs.find (Path.along base (route ++ [name])) = .error fault ∧
      (fault = .invalidName ∧ longestPath < byteLength (Path.along base (route ++ [name])) ∨
        ∀ location entries,
          fs.find (Path.along base route) ≠ .ok (location, .directory entries))) ∨
    ∃ location entries links,
      fs.find (Path.along base route) = .ok (location, .directory entries) ∧
      fs.find (Path.along base (route ++ [name])) =
        (walk fs.root .look links location [name]).bind Place.node? := by
  obtain ⟨names, hnames, rfl⟩ := hbase.exists_names
  have hisName : ∀ name ∈ route, Path.IsName name := fun name hname => (hroute name hname).isName
  have hlonger : ∀ other ∈ route ++ [name], Path.IsName other :=
    List.forall_mem_append.2 ⟨hisName, by simpa using hname.isName⟩
  rw [Path.along_toPath hnames hisName, Path.along_toPath hnames hlonger, ← List.append_assoc]
  exact find_rooted_append (List.forall_mem_append.2 ⟨hnames, hisName⟩) hname

/-- What a route leads to is an entry of the directory before it, or an entry leads there. -/
theorem exists_parent_of_find {found : Location × Node}
    (h : fs.find (Path.along base (route ++ [name])) = .ok found) :
    ∃ location entries node,
      fs.find (Path.along base route) = .ok (location, .directory entries) ∧
      entries.lookup name = some node := by
  obtain ⟨fault, hfault, -⟩ | ⟨location, entries, links, habove, hwalk⟩ :=
    find_along_append fs hbase hroute hname
  · rw [hfault] at h
    cases h
  · rw [hwalk] at h
    obtain ⟨node, hnode⟩ :=
      exists_entry_of_walk (inTree_of_find hbase hroute habove).1 hname.isName h
    exact ⟨location, entries, node, habove, hnode⟩

/-- An entry that is no link is found in its place, unless its path is refused. -/
theorem find_child {location : Location} {entries : List (Name × Node)}
    (h : fs.find (Path.along base route) = .ok (location, .directory entries)) {node : Node}
    (hentry : entries.lookup name = some node) (hlink : ∀ target, node ≠ .link target) :
    fs.find (Path.along base (route ++ [name])) = .ok (location ++ [name], node) ∨
      fs.find (Path.along base (route ++ [name])) = .error .invalidName ∧
        TooLong (Path.along base (route ++ [name])) := by
  -- the longer path may be too long; else the shorter one was found, so the step is taken there
  obtain ⟨fault, hfault, ⟨rfl, hlong⟩ | hnone⟩ | ⟨above, entries', links, habove, hwalk⟩ :=
    find_along_append fs hbase hroute hname
  · exact .inr ⟨hfault, .inl hlong⟩
  · exact absurd h (hnone location entries)
  · rw [h] at habove
    cases habove
    rw [hwalk, walk_entry (inTree_of_find hbase hroute h).1 hname.isName hentry hlink]
    split
    · rename_i hlong
      have hlonger : ∀ other ∈ route ++ [name], other.Valid :=
        List.forall_mem_append.2 ⟨hroute, by simpa using hname⟩
      exact .inr ⟨rfl, tooLong_along_of_mem hbase hlonger (by simp) hlong⟩
    · refine .inl ?_
      simp [Except.bind, Place.node?]

end Route

end FileSystem

end Stencil
