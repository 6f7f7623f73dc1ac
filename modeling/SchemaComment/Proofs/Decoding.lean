/-
  ONE SET OF OPTIONS, WRITTEN IN MANY WAYS.

  A configuration may give its options in any order, leave out those that have their defaults, hold
  members that nobody asked for, and spell its names and values with any escapes and white space.

  1. **Program** — `Options.ofJson`, on an object and on an array.
  2. **Specification** — `Options.Written o t`: the text is an object or an array that gives each field
     what `o` sets it to, and leaves out defaults only.  `ofJson_written`: every such text is read as `o`.
  3. **The crux** — what has been read so far is `o` on the fields given and the default on all others
     (`Options.Follows`).  A member that is known adds its field, any other adds none, and neither
     depends on what came before it (`readMembers_stream`).
-/
import SchemaComment.Proofs.Grammar
import SchemaComment.Options.Configuration

namespace SchemaComment

open Json

/-! ## Names of positions -/

namespace Position

/-- The names of a position. -/
def names : Position → List Text
  | .before => ["before".toList, "top".toList]
  | .after => ["after".toList, "bottom".toList]

/-- Whether a text names the position: without the blanks around it and perhaps a colon in front it is
    one of the names, in upper or lower case. -/
def IsNamedBy (p : Position) (t : Text) : Prop :=
  ∃ name : Text, name.map Char.toLower ∈ p.names ∧ (Text.trim t = name ∨ Text.trim t = ':' :: name)

/-- What a name is looked for in is the trimmed text, or that without its colon. -/
theorem exists_normalize (t : Text) :
    ∃ name, normalize t = name.map Char.toLower ∧ (Text.trim t = name ∨ Text.trim t = ':' :: name) := by
  unfold normalize
  cases ht : Text.trim t with
  | nil => exact ⟨[], rfl, Or.inl rfl⟩
  | cons c r =>
    by_cases hc : c = ':'
    · subst hc
      exact ⟨r, rfl, Or.inr rfl⟩
    · refine ⟨c :: r, ?_, Or.inl rfl⟩
      simp only
      split
      · rename_i hcons
        exact absurd (List.cons.inj hcons).1 hc
      · rfl

/-- No name begins with a colon, so a colon in front of one is cut off and no other. -/
theorem normalize_of_trim {t name : Text} {p : Position} (hname : name.map Char.toLower ∈ p.names)
    (h : Text.trim t = name ∨ Text.trim t = ':' :: name) : normalize t = name.map Char.toLower := by
  -- so the name itself takes the branch without a colon
  have hcolon : ∀ r, name ≠ ':' :: r := by
    rintro r rfl
    cases p <;> simp [names] at hname
  unfold normalize
  rcases h with h | h
  · simp only [h]
  · simp only [h]

/-- **A position is read from its names** and from nothing else. -/
theorem parse_eq_ok_iff {t : Text} {p : Position} : parse t = .ok p ↔ p.IsNamedBy t := by
  constructor
  · intro h
    obtain ⟨name, hname, htrim⟩ := exists_normalize t
    refine ⟨name, ?_, htrim⟩
    rw [← hname]
    simp only [parse] at h
    split at h
    · cases h
      simpa [names] using ‹_›
    · split at h
      · cases h
        simpa [names] using ‹_›
      · cases h
  · rintro ⟨name, hname, htrim⟩
    simp only [parse, normalize_of_trim hname htrim]
    cases p with
    | before =>
      rw [if_pos (by simpa [names] using hname)]
    | after =>
      have hother : ¬ (name.map Char.toLower = "before".toList ∨ name.map Char.toLower = "top".toList) := by
        simp only [names, List.mem_cons, List.not_mem_nil, or_false] at hname
        rcases hname with hname | hname <;> rw [hname] <;> decide
      rw [if_neg hother, if_pos (by simpa [names] using hname)]

end Position

/-! ## What a field is set to -/

/-- What an option is set to. -/
inductive Setting where
  | position (p : Position)
  /-- A position of its own for a kind, or none. -/
  | ownPosition (p : Option Position)
  | flag (b : Bool)
  | marker (m : Option Text)

namespace Field

/-- What the options set a field to. -/
def get (o : Options) : Field → Setting
  | .position => .position o.position
  | .positionIn k => .ownPosition (o.positionIn k)
  | .force => .flag o.force
  | .frozen => .flag o.frozen
  | .opening => .marker o.wrapper.opening
  | .closing => .marker o.wrapper.closing

/-- The options `acc` with one field set as in `o`. -/
def copy (o acc : Options) : Field → Options
  | .position => { acc with position := o.position }
  | .positionIn k => acc.setPositionIn k (o.positionIn k)
  | .force => { acc with force := o.force }
  | .frozen => { acc with frozen := o.frozen }
  | .opening => { acc with wrapper := { acc.wrapper with opening := o.wrapper.opening } }
  | .closing => { acc with wrapper := { acc.wrapper with closing := o.wrapper.closing } }

theorem mem_all (f : Field) : f ∈ all := by
  cases f with
  | positionIn k => simp [all, FileKind.mem_all]
  | _ => simp [all]

/-- **Setting a field** sets this one and no other. -/
theorem get_copy (o acc : Options) (f g : Field) :
    g.get (f.copy o acc) = if g = f then f.get o else g.get acc := by
  cases f with
  | positionIn k =>
    cases g with
    | positionIn j =>
      by_cases hj : j = k
      · simp [get, copy, Options.setPositionIn, hj]
      · simp [get, copy, Options.setPositionIn, hj]
    | _ => rfl
  | _ => cases g <;> rfl

end Field

/-- Options are told by their fields. -/
theorem Options.ext_get {o o' : Options} (h : ∀ f : Field, f.get o = f.get o') : o = o' := by
  obtain ⟨position, positionIn, force, frozen, opening, closing⟩ := o
  obtain ⟨position', positionIn', force', frozen', opening', closing'⟩ := o'
  have hkinds : positionIn = positionIn' := by
    funext k
    simpa [Field.get] using h (.positionIn k)
  have hposition := h .position
  have hforce := h .force
  have hfrozen := h .frozen
  have hopening := h .opening
  have hclosing := h .closing
  simp only [Field.get, Setting.position.injEq, Setting.flag.injEq, Setting.marker.injEq] at *
  simp only [*]

/-! ## The texts of a configuration -/

/-- `s.Written v`: the JSON value `v` gives the setting. -/
inductive Setting.Written : Setting → Text → Prop
  | position {p : Position} {v t : Text} (hv : Spells v t) (ht : p.IsNamedBy t) :
      Written (.position p) v
  | ownPosition {p : Position} {v t : Text} (hv : Spells v t) (ht : p.IsNamedBy t) :
      Written (.ownPosition (some p)) v
  | noPosition : Written (.ownPosition none) ['n', 'u', 'l', 'l']
  | yes : Written (.flag true) ['t', 'r', 'u', 'e']
  | no : Written (.flag false) ['f', 'a', 'l', 's', 'e']
  | marker {m v : Text} (hv : Spells v m) : Written (.marker (some m)) v
  | noMarker : Written (.marker none) ['n', 'u', 'l', 'l']

variable {o acc : Options} {seen fs : List Field} {f : Field}

/-- `Members o fs t`: the members of an object, with the commas between them, that give the fields `fs`
    in this order, each set as in `o`.  Any other members may stand between them. -/
inductive Members (o : Options) : List Field → Text → Prop
  | known {f : Field} {s v w w' x x' : Text} (hw : IsSpaces w) (hs : Spells s f.key.toList)
      (hw' : IsSpaces w') (hx : IsSpaces x) (hv : (f.get o).Written v) (hx' : IsSpaces x') :
      Members o [f] (w ++ (s ++ (w' ++ ':' :: (x ++ (v ++ x')))))
  | unknown {name s v w w' x x' : Text} (hname : ∀ f : Field, name ≠ f.key.toList) (hw : IsSpaces w)
      (hs : Spells s name) (hw' : IsSpaces w') (hx : IsSpaces x) (hv : IsJson .value v)
      (hx' : IsSpaces x') : Members o [] (w ++ (s ++ (w' ++ ':' :: (x ++ (v ++ x')))))
  | append {fs gs : List Field} {t u : Text} (ht : Members o fs t) (hu : Members o gs u) :
      Members o (fs ++ gs) (t ++ ',' :: u)

/-- `Elements o fs t`: the elements of an array, with the commas between them, that give the fields `fs`
    in this order, each set as in `o`. -/
inductive Elements (o : Options) : List Field → Text → Prop
  | one {f : Field} {v w w' : Text} (hw : IsSpaces w) (hv : (f.get o).Written v) (hw' : IsSpaces w') :
      Elements o [f] (w ++ (v ++ w'))
  | append {fs gs : List Field} {t u : Text} (ht : Elements o fs t) (hu : Elements o gs u) :
      Elements o (fs ++ gs) (t ++ ',' :: u)

/-- `o.Written t`: the text `t` is a configuration that gives the options `o`.  In an object each field
    is given once at most, in any order; an array gives the first fields in their order.  What is left
    out has its default in `o`. -/
inductive Options.Written (o : Options) : Text → Prop
  | object {fs : List Field} {t w w' : Text} (hw : IsSpaces w)
      (ht : Members o fs t ∨ fs = [] ∧ IsSpaces t) (hw' : IsSpaces w') (hdistinct : fs.Nodup)
      (hgiven : ∀ f : Field, f ∈ fs ∨ f.get o = f.get {}) :
      Written o (w ++ '\x7b' :: (t ++ '\x7d' :: w'))
  | array {fs : List Field} {t w w' : Text} (hw : IsSpaces w)
      (ht : Elements o fs t ∨ fs = [] ∧ IsSpaces t) (hw' : IsSpaces w') (horder : fs <+: Field.all)
      (hgiven : ∀ f : Field, f ∈ fs ∨ f.get o = f.get {}) :
      Written o (w ++ '[' :: (t ++ ']' :: w'))

/-! ## Every set of options can be written -/

theorem Setting.exists_written (s : Setting) : ∃ v, s.Written v := by
  have hname (p : Position) : ∃ v t, Spells v t ∧ p.IsNamedBy t := by
    obtain ⟨v, hv⟩ := exists_spells p.name.toList
    exact ⟨v, p.name.toList, hv, Position.parse_eq_ok_iff.mp (Position.parse_name p)⟩
  cases s with
  | position p =>
    obtain ⟨v, t, hv, ht⟩ := hname p
    exact ⟨v, .position hv ht⟩
  | ownPosition p =>
    cases p with
    | none => exact ⟨_, .noPosition⟩
    | some p =>
      obtain ⟨v, t, hv, ht⟩ := hname p
      exact ⟨v, .ownPosition hv ht⟩
  | flag b =>
    cases b with
    | true => exact ⟨_, .yes⟩
    | false => exact ⟨_, .no⟩
  | marker m =>
    cases m with
    | none => exact ⟨_, .noMarker⟩
    | some m =>
      obtain ⟨v, hv⟩ := exists_spells m
      exact ⟨v, .marker hv⟩

theorem exists_elements (o : Options) (hne : fs ≠ []) : ∃ t, Elements o fs t := by
  induction fs with
  | nil => exact absurd rfl hne
  | cons f fs ih =>
    obtain ⟨v, hv⟩ := (f.get o).exists_written
    have hone : Elements o [f] v := by simpa using Elements.one isSpaces_nil hv isSpaces_nil
    by_cases hfs : fs = []
    · subst hfs
      exact ⟨v, hone⟩
    · obtain ⟨t, ht⟩ := ih hfs
      exact ⟨_, .append hone ht⟩

/-- **Every set of options can be written**, as an array of all its fields. -/
theorem Options.exists_written (o : Options) : ∃ t, o.Written t := by
  have hall : Field.all ≠ [] := by simp [Field.all]
  obtain ⟨t, ht⟩ := exists_elements o hall
  exact ⟨_, .array isSpaces_nil (Or.inl ht) isSpaces_nil List.prefix_rfl fun f => Or.inl f.mem_all⟩

/-! ## Reading a field -/

theorem readText_string {ps : List Piece} {t : Text} (h : Makes ps t) : readText (.string ps) = .ok t := by
  simp [readText, textOfPieces?_eq h]

theorem readPosition_string {ps : List Piece} {t : Text} {p : Position} (h : Makes ps t)
    (ht : p.IsNamedBy t) : readPosition (.string ps) = .ok p := by
  simp [readPosition, readText_string h, Position.parse_eq_ok_iff.mpr ht, bind, Except.bind]

/-- Whether the setting is what a token is read as, where such a setting is asked for. -/
def Setting.IsReadFrom (k : Token) : Setting → Prop
  | .position p => readPosition k = .ok p
  | .ownPosition p => readOptional readPosition k = .ok p
  | .flag b => readBool k = .ok b
  | .marker m => readOptional readText k = .ok m

/-- **A setting is one token**, and it is read from that token. -/
theorem Setting.Written.exists_token {s : Setting} {v : Text} (h : s.Written v) :
    ∃ k, (∀ rest, Token.stream (v ++ rest) = k :: Token.stream rest) ∧ s.IsReadFrom k := by
  cases h with
  | position hv ht =>
    obtain ⟨ps, hstring, hmakes⟩ := hv
    exact ⟨.string ps, stream_string hstring, readPosition_string hmakes ht⟩
  | ownPosition hv ht =>
    obtain ⟨ps, hstring, hmakes⟩ := hv
    refine ⟨.string ps, stream_string hstring, ?_⟩
    simp [IsReadFrom, readOptional, readPosition_string hmakes ht, Functor.map, Except.map]
  | marker hv =>
    obtain ⟨ps, hstring, hmakes⟩ := hv
    refine ⟨.string ps, stream_string hstring, ?_⟩
    simp [IsReadFrom, readOptional, readText_string hmakes, Functor.map, Except.map]
  | noPosition | noMarker => exact ⟨.null, fun rest => stream_token rfl rfl, rfl⟩
  | yes => exact ⟨.bool true, fun rest => stream_token rfl rfl, rfl⟩
  | no => exact ⟨.bool false, fun rest => stream_token rfl rfl, rfl⟩

/-- A field is set as in `o` from a token of its setting. -/
theorem Field.read_eq {k : Token} (h : (f.get o).IsReadFrom k) (acc : Options) :
    f.read acc k = .ok (f.copy o acc) := by
  cases f <;> simp only [Field.get, Setting.IsReadFrom] at h <;>
    simp [Field.read, Field.copy, h, bind, Except.bind, pure, Except.pure]

/-! ## What has been read so far -/

/-- Whether `acc` is `o` on the fields given and has its defaults on all others. -/
def Options.Follows (o : Options) (given : List Field) (acc : Options) : Prop :=
  ∀ g : Field, g.get acc = if g ∈ given then g.get o else g.get {}

theorem Options.follows_nil (o : Options) : o.Follows [] {} := by
  intro g
  simp

/-- One more field given. -/
theorem Options.Follows.cons (h : o.Follows seen acc) (f : Field) :
    o.Follows (f :: seen) (f.copy o acc) := by
  intro g
  rw [Field.get_copy, h g]
  by_cases hg : g = f
  · simp [hg]
  · simp [hg]

/-- **Where every field was given or has its default**, nothing is missing. -/
theorem Options.Follows.eq (h : o.Follows seen acc)
    (hgiven : ∀ f : Field, f ∈ seen ∨ f.get o = f.get {}) : acc = o := by
  refine Options.ext_get fun g => ?_
  rw [h g]
  split
  · rfl
  · rename_i hg
    exact ((hgiven g).resolve_left hg).symm

/-! ## Members -/

/-- What comes of an object once a member has been read. -/
def resumeMembers (seen : List Field) (acc : Options) :
    List Token → Except ConfigFault (Options × List Token)
  | .comma :: ks => readMembers seen acc ks
  | .closeObject :: ks => .ok (acc, ks)
  | _ => .error .notJson

theorem readMembers_of_readMember {seen' : List Field} {acc' : Options} {ks rest : List Token}
    (h : readMember seen acc ks = .ok (seen', acc', rest)) :
    readMembers seen acc ks = resumeMembers seen' acc' rest := by
  rw [readMembers]
  split
  · rename_i hread
    cases h.symm.trans hread
    rfl
  · rename_i hread
    cases h.symm.trans hread
    rfl
  · rename_i hcomma hclose hread
    cases h.symm.trans hread
    unfold resumeMembers
    split
    · exact absurd rfl (hcomma _ _ _)
    · exact absurd rfl (hclose _ _ _)
    · rfl
  · rename_i hread
    cases h.symm.trans hread

theorem ofKey?_eq_none {name : Text} (h : ∀ f : Field, name ≠ f.key.toList) :
    Field.ofKey? name = none := by
  rw [Field.ofKey?, List.find?_eq_none]
  intro f _ hf
  exact h f (eq_of_beq hf).symm

/-- **Members are read** under what has been read before them, and add the fields that they give. -/
theorem readMembers_stream {t : Text} (h : Members o fs t) :
    ∀ {seen : List Field} {acc : Options}, o.Follows seen acc → fs.Nodup → (∀ f ∈ fs, f ∉ seen) →
      ∃ acc', o.Follows (fs.reverse ++ seen) acc' ∧ ∀ rest, Delimited rest →
        readMembers seen acc (Token.stream (t ++ rest)) =
          resumeMembers (fs.reverse ++ seen) acc' (Token.stream rest) := by
  induction h with
  | @known f s v w w' x x' hw hs hw' hx hv hx' =>
    intro seen acc hacc _ hnew
    obtain ⟨ps, hstring, hmakes⟩ := hs
    obtain ⟨k, hk, hread⟩ := hv.exists_token
    refine ⟨f.copy o acc, hacc.cons f, fun rest _ => readMembers_of_readMember ?_⟩
    have htokens : Token.stream ((w ++ (s ++ (w' ++ ':' :: (x ++ (v ++ x'))))) ++ rest) =
        .string ps :: .colon :: k :: Token.stream rest := by
      simp only [List.append_assoc, List.cons_append]
      rw [stream_spaces hw, stream_string hstring, stream_spaces hw', stream_token rfl rfl,
        stream_spaces hx, hk, stream_spaces hx']
    rw [htokens]
    simp [readMember, textOfPieces?_eq hmakes, Field.ofKey?_key, hnew f (by simp), readKnown,
      Field.read_eq hread, Except.map]
  | @unknown name s v w w' x x' hname hw hs hw' hx hv hx' =>
    intro seen acc hacc _ _
    obtain ⟨ps, hstring, hmakes⟩ := hs
    refine ⟨acc, hacc, fun rest hrest => readMembers_of_readMember ?_⟩
    have hskip : skipValue (Token.stream (v ++ (x' ++ rest))) = some (Token.stream rest) := by
      rw [skipValue_stream hv (hrest.spaces_append hx'), stream_spaces hx']
    have htokens : Token.stream ((w ++ (s ++ (w' ++ ':' :: (x ++ (v ++ x'))))) ++ rest) =
        .string ps :: .colon :: Token.stream (v ++ (x' ++ rest)) := by
      simp only [List.append_assoc, List.cons_append]
      rw [stream_spaces hw, stream_string hstring, stream_spaces hw', stream_token rfl rfl,
        stream_spaces hx]
    rw [htokens]
    simp [readMember, textOfPieces?_eq hmakes, ofKey?_eq_none hname, readUnknown, hskip, Except.map]
  | @append fs gs t u _ _ iht ihu =>
    intro seen acc hacc hdistinct hnew
    obtain ⟨hfs, hgs, hapart⟩ := List.nodup_append.mp hdistinct
    obtain ⟨mid, hmid, ht⟩ := iht hacc hfs fun f hf => hnew f (List.mem_append_left gs hf)
    -- the fields of the first members count as given for those behind them
    have hlater : ∀ g ∈ gs, g ∉ fs.reverse ++ seen := by
      intro g hg hseen
      rcases List.mem_append.mp hseen with hfirst | hseen
      · exact hapart g (List.mem_reverse.mp hfirst) g hg rfl
      · exact hnew g (List.mem_append_right fs hg) hseen
    obtain ⟨acc', hacc', hu⟩ := ihu hmid hgs hlater
    refine ⟨acc', by simpa using hacc', fun rest hrest => ?_⟩
    rw [List.append_assoc, List.cons_append, ht _ (delimited_cons (by simp) _), stream_token rfl rfl]
    refine (hu rest hrest).trans ?_
    simp

/-! ## Elements -/

/-- What comes of an array once an element has been read. -/
def resumeElements (fs : List Field) (acc : Options) :
    List Token → Except ConfigFault (Options × List Token)
  | .comma :: ks => readElements fs acc ks
  | .closeArray :: ks => .ok (acc, ks)
  | _ => .error .notJson

/-- **Elements are read** for the fields that they give. -/
theorem readElements_stream {t : Text} (h : Elements o fs t) :
    ∀ {seen : List Field} {acc : Options} (more : List Field), o.Follows seen acc →
      ∃ acc', o.Follows (fs.reverse ++ seen) acc' ∧ ∀ rest,
        readElements (fs ++ more) acc (Token.stream (t ++ rest)) =
          resumeElements more acc' (Token.stream rest) := by
  induction h with
  | @one f v w w' hw hv hw' =>
    intro seen acc more hacc
    obtain ⟨k, hk, hread⟩ := hv.exists_token
    refine ⟨f.copy o acc, hacc.cons f, fun rest => ?_⟩
    rw [List.append_assoc, List.append_assoc, stream_spaces hw, hk, stream_spaces hw']
    simp only [List.cons_append, List.nil_append, readElements, Field.read_eq hread]
    rfl
  | @append fs gs t u _ _ iht ihu =>
    intro seen acc more hacc
    obtain ⟨mid, hmid, ht⟩ := iht (gs ++ more) hacc
    obtain ⟨acc', hacc', hu⟩ := ihu more hmid
    refine ⟨acc', by simpa using hacc', fun rest => ?_⟩
    rw [List.append_assoc, List.append_assoc, List.cons_append, ht, stream_token rfl rfl]
    exact hu rest

/-! ## Whole configurations -/

/-- An object whose members are read is not the empty one. -/
theorem readOptions_object {ks rest : List Token} (h : readMembers [] {} ks = .ok (o, rest)) :
    readOptions (.openObject :: ks) = .ok (o, rest) := by
  cases ks with
  | nil => exact h
  | cons k ks =>
    cases k with
    | closeObject =>
      rw [readMembers] at h
      cases h
    | _ => exact h

/-- An array whose elements are read is not the empty one. -/
theorem readOptions_array {ks rest : List Token} (h : readElements Field.all {} ks = .ok (o, rest)) :
    readOptions (.openArray :: ks) = .ok (o, rest) := by
  cases ks with
  | nil => exact h
  | cons k ks =>
    cases k with
    | closeArray => cases h
    | _ => exact h

/-- Behind white space at the end there is no token. -/
theorem stream_of_isSpaces {w : Text} (h : IsSpaces w) : Token.stream w = [] := by
  have hend := stream_spaces h []
  rwa [List.append_nil, stream_eq [], List.dropWhile_nil] at hend

/-- **One set of options may be written in many ways**, and is read from each of them. -/
theorem Options.ofJson_written {t : Text} (h : o.Written t) : Options.ofJson t = .ok o := by
  have hread : readOptions (Token.stream t) = .ok (o, []) := by
    cases h with
    | @object fs t w w' hw ht hw' hdistinct hgiven =>
      rw [stream_spaces hw, stream_token rfl rfl]
      rcases ht with ht | ⟨rfl, ht⟩
      · obtain ⟨acc, hacc, hmembers⟩ := readMembers_stream ht o.follows_nil hdistinct (by simp)
        obtain rfl : acc = o := hacc.eq fun f => (hgiven f).imp_left (by simp)
        apply readOptions_object
        rw [hmembers _ (delimited_cons (by simp) w'), stream_token rfl rfl, stream_of_isSpaces hw']
        rfl
      · obtain rfl : {} = o := o.follows_nil.eq hgiven
        rw [stream_spaces ht, stream_token rfl rfl, stream_of_isSpaces hw']
        rfl
    | @array fs t w w' hw ht hw' horder hgiven =>
      rw [stream_spaces hw, stream_token rfl rfl]
      rcases ht with ht | ⟨rfl, ht⟩
      · obtain ⟨more, hmore⟩ := horder
        obtain ⟨acc, hacc, helements⟩ := readElements_stream ht more o.follows_nil
        obtain rfl : acc = o := hacc.eq fun f => (hgiven f).imp_left (by simp)
        apply readOptions_array
        rw [← hmore, helements, stream_token rfl rfl, stream_of_isSpaces hw']
        rfl
      · obtain rfl : {} = o := o.follows_nil.eq hgiven
        rw [stream_spaces ht, stream_token rfl rfl, stream_of_isSpaces hw']
        rfl
  rw [Options.ofJson, hread]

/-- Options that are not the default ones. -/
def variedOptions : Options where
  position := .after
  force := true

/-- An object that gives them, with an escape and a member that nobody asked for. -/
def variedText : Text :=
  ' ' :: '\x7b' ::
    ("\"x\":[-1e400, \"\\ud800\"]".toList ++ ',' ::
      ("\n\"\\u0066orce\" :true".toList ++ ',' :: "\"position\":\" :Bottom\"".toList) ++ ['\x7d'])

theorem written_variedText : variedOptions.Written variedText := by
  have hnone := isSpaces_nil
  have hspace : IsSpaces [' '] := by simp [IsSpaces]
  have hbreak : IsSpaces ['\n'] := by simp [IsSpaces]
  have hx : Members variedOptions [] "\"x\":[-1e400, \"\\ud800\"]".toList := by
    -- a number beyond all bounds, and half of a pair in a string that is not read
    have hnumber : IsNumber "-1e400".toList :=
      ⟨['-'], ['1'], [], "e400".toList, Or.inr rfl,
        Or.inr ⟨⟨by decide, List.all_eq_true.mp rfl⟩, by decide⟩, Or.inl rfl,
        Or.inr ⟨'e', [], "400".toList, Or.inl rfl, Or.inl rfl, ⟨by decide, List.all_eq_true.mp rfl⟩, rfl⟩,
        rfl⟩
    have hhalf : IsString "\"\\ud800\"".toList [.unit 0xD800] :=
      ⟨"\\ud800".toList, .unit ⟨13, 8, 0, 0, ⟨by decide, Or.inl rfl⟩, ⟨by decide, Or.inl rfl⟩,
        ⟨by decide, Or.inl rfl⟩, ⟨by decide, Or.inl rfl⟩, rfl⟩ .nil, rfl⟩
    have hvalue : IsJson .value "[-1e400, \"\\ud800\"]".toList :=
      .array (.elements (.element hnone (.number hnumber) hnone) (.element hspace (.string hhalf) hnone))
    have hunknown : ∀ f : Field, ['x'] ≠ f.key.toList := by
      intro f hf
      have hfound : Field.ofKey? ['x'] = some f := by rw [hf, Field.ofKey?_key]
      have hlost : Field.ofKey? ['x'] = none := by decide
      cases hlost.symm.trans hfound
    exact .unknown hunknown hnone (spells_plain (by decide)) hnone hnone hvalue hnone
  have hforce : Members variedOptions [.force] "\n\"\\u0066orce\" :true".toList := by
    have hbody : IsBody "\\u0066orce".toList (.unit 0x66 :: "orce".toList.map .char) :=
      .unit ⟨0, 0, 6, 6, ⟨by decide, Or.inl rfl⟩, ⟨by decide, Or.inl rfl⟩, ⟨by decide, Or.inl rfl⟩,
        ⟨by decide, Or.inl rfl⟩, rfl⟩ (isBody_plain (t := "orce".toList) (by decide))
    have hkey : Spells "\"\\u0066orce\"".toList Field.force.key.toList :=
      ⟨_, ⟨_, hbody, rfl⟩, .unit (c := 'f') (makes_char "orce".toList)⟩
    exact .known (o := variedOptions) (f := .force) hbreak hkey hspace hnone .yes hnone
  have hposition : Members variedOptions [.position] "\"position\":\" :Bottom\"".toList := by
    have hname : Position.after.IsNamedBy " :Bottom".toList :=
      ⟨"Bottom".toList, by decide, Or.inr (by decide)⟩
    have hset : (Field.position.get variedOptions).Written "\" :Bottom\"".toList :=
      .position (spells_plain (t := " :Bottom".toList) (by decide)) hname
    exact .known (f := .position) hnone (spells_plain (t := "position".toList) (by decide)) hnone hnone
      hset hnone
  have hmembers : Members variedOptions [.force, .position] _ := .append hx (.append hforce hposition)
  refine .object hspace (Or.inl hmembers) hnone (by decide) fun f => ?_
  cases f with
  | position | force => exact Or.inl (by decide)
  | _ => exact Or.inr rfl

/-- Options are read from an object in another order, with an escape and an unknown member. -/
theorem Options.ofJson_written_variedText :
    variedOptions.Written variedText ∧ Options.ofJson variedText = .ok variedOptions :=
  ⟨written_variedText, ofJson_written written_variedText⟩

end SchemaComment
