import FunctionService.Proofs.RoundTrip

/-!
# Reading values where they stand

The decoders of recursive types count down a bound on the levels still to be read. The bound never
shows: any bound that exceeds the depth of a value gives the same result, so tagged values and
expressions are read by plain recursion on their parts (`Variants.read_eq`, `Expression.decode_eq`).

A symbol can be read where it stands exactly if it can be read after it was put aside and makes no use
of the two spellings that only such values admit: a number for a kind, and the empty object for the
payload of a name without one (`TypeSymbol.read_direct_iff`).
-/

namespace FunctionService

open Json

namespace Json

/-! ## Depth of parts -/

theorem depth_le_depthItems {item : Json} {items : List Json} (h : item ∈ items) :
    item.depth ≤ depthItems items := by
  induction items with
  | nil => cases h
  | cons first rest ih =>
      rw [depthItems]
      rcases List.mem_cons.mp h with rfl | hrest
      · exact Nat.le_max_left ..
      · exact (ih hrest).trans (Nat.le_max_right ..)

theorem depth_le_depthFields {field : String × Json} {fields : List (String × Json)}
    (h : field ∈ fields) : field.2.depth ≤ depthFields fields := by
  induction fields with
  | nil => cases h
  | cons first rest ih =>
      rw [depthFields]
      rcases List.mem_cons.mp h with rfl | hrest
      · exact Nat.le_max_left ..
      · exact (ih hrest).trans (Nat.le_max_right ..)

theorem mem_of_slot {fields : List (String × Json)} {key : String} {value : Json}
    (h : slot fields key = some (some value)) : (key, value) ∈ fields := by
  have hvalues : valuesAt key fields = [value] := by
    unfold slot at h
    split at h
    · cases h
    · cases h
      assumption
    · cases h
  have hmem : value ∈ valuesAt key fields := by simp [hvalues]
  obtain ⟨field, hfield, rfl⟩ := List.mem_map.mp hmem
  obtain ⟨hfield, hkey⟩ := List.mem_filter.mp hfield
  rwa [← beq_iff_eq.mp hkey]

theorem eq_of_slot {fields : List (String × Json)} {key : String} {o : Option Json} {value : Json}
    (h : slot fields key = some o) (hmem : (key, value) ∈ fields) : o = some value := by
  have hvalue : value ∈ valuesAt key fields :=
    List.mem_map.mpr ⟨(key, value), List.mem_filter.mpr ⟨hmem, beq_self_eq_true key⟩, rfl⟩
  unfold slot at h
  split at h
  next hnil => simp [hnil] at hvalue
  next hone =>
    cases h
    simp_all
  · cases h

theorem mapM_eq_some_iff {α β : Type} {f : α → Option β} {xs : List α} {ys : List β} :
    xs.mapM f = some ys ↔ List.Forall₂ (fun x y => f x = some y) xs ys := by
  induction xs generalizing ys with
  | nil => simp [eq_comm]
  | cons x xs ih =>
      rw [List.mapM_cons]
      cases ys with
      | nil => simp [Option.bind_eq_some_iff]
      | cons y ys => simp [Option.bind_eq_some_iff, ih]

theorem exists_of_mem_mapM {α β : Type} {f : α → Option β} {xs : List α} {ys : List β}
    (h : xs.mapM f = some ys) {y : β} (hy : y ∈ ys) : ∃ x ∈ xs, f x = some y := by
  induction mapM_eq_some_iff.mp h with
  | nil => cases hy
  | cons hxy hrest ih =>
      rcases List.mem_cons.mp hy with rfl | hy
      · exact ⟨_, List.mem_cons_self, hxy⟩
      · obtain ⟨x, hx, hxy⟩ := ih (mapM_eq_some_iff.mpr hrest) hy
        exact ⟨x, List.mem_cons_of_mem _ hx, hxy⟩

theorem mem_of_slots {names : List String} {v w : Json} {ws : List (Option Json)}
    (h : v.slots names = some ws) (hw : some w ∈ ws) :
    (∃ fields key, v = .obj fields ∧ (key, w) ∈ fields) ∨ ∃ items, v = .arr items ∧ w ∈ items := by
  cases v with
  | obj fields =>
      obtain ⟨name, -, hname⟩ := exists_of_mem_mapM h hw
      exact .inl ⟨fields, name, rfl, mem_of_slot hname⟩
  | arr items =>
      rw [slots] at h
      split at h
      · cases h
        exact .inr ⟨items, rfl, by simpa using hw⟩
      · cases h
  | _ => cases h

theorem depth_lt_of_slots {names : List String} {v w : Json} {ws : List (Option Json)}
    (h : v.slots names = some ws) (hw : some w ∈ ws) : w.depth < v.depth := by
  obtain ⟨fields, key, rfl, hmem⟩ | ⟨items, rfl, hmem⟩ := mem_of_slots h hw
  · exact Nat.lt_succ_of_le (depth_le_depthFields hmem)
  · exact Nat.lt_succ_of_le (depth_le_depthItems hmem)

theorem tagged_obj_eq_some_iff {kinds : List String} {reading reading' : Reading}
    {fields : List (String × Json)} {kind : String} {content : Option Json} :
    (Json.obj fields).tagged kinds reading = some (kind, content, reading') ↔
      ∃ k, slot fields kindKey = some (some k) ∧ k.plainChoice reading = some kind ∧
        slot fields contentKey = some content ∧
        reading' = if contentFirst fields then .buffered else reading := by
  simp only [tagged, Option.bind_eq_bind, Option.bind_eq_some_iff, Option.pure_def, Option.some.injEq,
    Prod.mk.injEq]
  constructor
  · rintro ⟨kind?, hk, name, hname, c, hc, rfl, rfl, rfl⟩
    cases kind? with
    | none => cases hname
    | some k => exact ⟨k, hk, hname, hc, rfl⟩
  · rintro ⟨k, hk, hkind, hc, rfl⟩
    exact ⟨some k, hk, kind, hkind, content, hc, rfl, rfl, rfl⟩

theorem tagged_arr_eq_some_iff {kinds : List String} {reading reading' : Reading}
    {items : List Json} {kind : String} {content : Option Json} :
    (Json.arr items).tagged kinds reading = some (kind, content, reading') ↔
      ∃ k c, items = [k, c] ∧ k.kindAtHead kinds reading = some kind ∧ content = some c ∧
        reading' = reading := by
  constructor
  · intro h
    match items, h with
    | [k, c], h =>
        obtain ⟨name, hname, h⟩ := Option.bind_eq_some_iff.mp h
        cases h
        exact ⟨k, c, rfl, hname, rfl, rfl⟩
  · rintro ⟨k, c, rfl, hk, rfl, rfl⟩
    simp [tagged, hk]

theorem depth_lt_of_tagged {kinds : List String} {reading reading' : Reading} {v : Json}
    {kind : String} {content : Option Json}
    (h : v.tagged kinds reading = some (kind, content, reading')) :
    ∀ w ∈ content, w.depth < v.depth := by
  intro w hw
  cases v with
  | obj fields =>
      obtain ⟨-, -, -, hcontent, -⟩ := tagged_obj_eq_some_iff.mp h
      rw [Option.mem_def.mp hw] at hcontent
      exact Nat.lt_succ_of_le (depth_le_depthFields (mem_of_slot hcontent))
  | arr items =>
      obtain ⟨k, c, rfl, -, rfl, -⟩ := tagged_arr_eq_some_iff.mp h
      cases hw
      exact Nat.lt_succ_of_le (depth_le_depthItems (List.mem_cons_of_mem _ List.mem_cons_self))
  | _ => cases h

theorem depth_lt_of_choice {v payload : Json} {name : String}
    (h : v.choice = some (name, some payload)) : payload.depth < v.depth := by
  unfold choice at h
  split at h
  · cases h
  · cases h
    simp [depth, depthFields]
  · cases h

/-! ## Decoders that agree -/

section Congruence

variable {α : Type} {read read' : Json → Option α} {d : Nat}

theorem required_congr (h : ∀ w, w.depth < d → read w = read' w) {o : Option Json}
    (ho : ∀ w ∈ o, w.depth < d) : required read o = required read' o := by
  cases o with
  | none => rfl
  | some w => exact h w (ho w rfl)

theorem mapM_congr {β : Type} {f g : β → Option α} {xs : List β} (h : ∀ x ∈ xs, f x = g x) :
    xs.mapM f = xs.mapM g := by
  induction xs with
  | nil => rfl
  | cons x xs ih =>
      obtain ⟨hx, hxs⟩ := List.forall_mem_cons.mp h
      rw [List.mapM_cons, List.mapM_cons, hx, ih hxs]

theorem list?_congr (h : ∀ w, w.depth < d → read w = read' w) {v : Json} (hv : v.depth ≤ d) :
    list? read v = list? read' v := by
  cases v with
  | arr items =>
      exact mapM_congr fun w hw =>
        h w ((Nat.lt_succ_of_le (depth_le_depthItems hw)).trans_le hv)
  | _ => rfl

end Congruence

end Json

/-! ## Tagged values -/

section Tagged

variable {α : Type}

theorem Content.read_congr {part part' : Json → Option α} {d : Nat}
    (h : ∀ w, w.depth < d → part w = part' w) (c : Content α) {content : Option Json}
    (hcontent : ∀ w ∈ content, w.depth < d) (reading : Reading) :
    c.read part reading content = c.read part' reading content := by
  cases c with
  | one make => rw [read, read, required_congr h hcontent]
  | many make => rw [read, read, required_congr (fun w hw => list?_congr h hw.le) hcontent]
  | _ => rfl

namespace Variants

variable {variants : Variants α}

theorem ofTagged_congr {part part' : Reading → Json → Option α} {d : Nat}
    (h : ∀ r w, w.depth < d → part r w = part' r w) (kind : String) {content : Option Json}
    (hcontent : ∀ w ∈ content, w.depth < d) (reading : Reading) :
    variants.ofTagged part kind content reading = variants.ofTagged part' kind content reading :=
  Option.bind_congr fun c _ => c.read_congr (h reading) hcontent reading

theorem readWithin_eq {n m : Nat} {reading : Reading} {v : Json} (hn : v.depth < n)
    (hm : v.depth < m) : variants.readWithin n reading v = variants.readWithin m reading v := by
  induction n generalizing m reading v with
  | zero => omega
  | succ n ih =>
      obtain ⟨m, rfl⟩ : ∃ k, m = k + 1 := ⟨m - 1, by omega⟩
      refine Option.bind_congr fun t ht => ofTagged_congr (d := v.depth) ?_ _ (depth_lt_of_tagged ht) _
      exact fun r w hw => ih (by omega) (by omega)

/-- A tagged value is read by reading its content. -/
theorem read_eq (variants : Variants α) (reading : Reading) (v : Json) :
    variants.read reading v = (v.tagged variants.kinds reading).bind fun t =>
      variants.ofTagged variants.read t.1 t.2.1 t.2.2 := by
  refine Option.bind_congr fun t ht => ofTagged_congr (d := v.depth) ?_ _ (depth_lt_of_tagged ht) _
  exact fun r w hw => readWithin_eq hw (Nat.lt_succ_self _)

end Variants

end Tagged

/-! ## Expressions -/

theorem Json.withPayload_congr {α : Type} {read read' : String → Json → Option α} {v : Json}
    (h : ∀ form payload, payload.depth < v.depth → read form payload = read' form payload) :
    v.withPayload read = v.withPayload read' := by
  refine Option.bind_congr fun c hc => Option.bind_congr fun payload hpayload => h _ _ ?_
  obtain ⟨form, _⟩ := c
  cases hpayload
  exact depth_lt_of_choice hc

theorem Expression.ofForm_congr {expression expression' : Json → Option Expression}
    {argument argument' : Json → Option Argument} {payload : Json}
    (hexpression : ∀ w, w.depth < payload.depth → expression w = expression' w)
    (hargument : ∀ w, w.depth < payload.depth → argument w = argument' w) (form : String) :
    Expression.ofForm expression argument form payload =
      Expression.ofForm expression' argument' form payload := by
  have hlist := list?_congr hexpression (Nat.le_refl payload.depth)
  have hpart {ws : List (Option Json)} {names : List String} (hws : payload.slots names = some ws)
      {o : Option Json} (ho : o ∈ ws) : ∀ w ∈ o, w.depth < payload.depth := fun w hw =>
    depth_lt_of_slots hws (Option.mem_def.mp hw ▸ ho)
  have harguments {o : Option Json} (ho : ∀ w ∈ o, w.depth < payload.depth) :
      required (list? argument) o = required (list? argument') o :=
    required_congr (fun w hw => list?_congr hargument hw.le) ho
  unfold Expression.ofForm
  split
  · rfl
  · refine Option.bind_congr fun ws hws => ?_
    split
    · rw [required_congr hexpression (hpart hws (by simp))]
    · rfl
  · refine Option.bind_congr fun ws hws => ?_
    split
    · rw [required_congr hexpression (hpart hws (by simp)),
        required_congr hexpression (hpart hws (by simp))]
    · rfl
  · rw [hlist]
  · refine Option.bind_congr fun ws hws => ?_
    split
    · rw [harguments (hpart hws (by simp))]
    · rfl
  · refine Option.bind_congr fun ws hws => ?_
    split
    · rw [harguments (hpart hws (by simp))]
    · rfl
  · rfl
  · rfl
  · rfl

theorem Argument.ofForm_congr {expression expression' : Json → Option Expression} {payload : Json}
    (h : expression payload = expression' payload) (form : String) :
    Argument.ofForm expression form payload = Argument.ofForm expression' form payload := by
  unfold Argument.ofForm
  rw [h]

theorem decodeWithin_expression_argument {n m : Nat} {v : Json} (hn : v.depth < n) (hm : v.depth < m) :
    Expression.decodeWithin n v = Expression.decodeWithin m v ∧
      Argument.decodeWithin n v = Argument.decodeWithin m v := by
  induction n generalizing m v with
  | zero => omega
  | succ n ih =>
      obtain ⟨m, rfl⟩ : ∃ k, m = k + 1 := ⟨m - 1, by omega⟩
      rw [Expression.decodeWithin, Expression.decodeWithin, Argument.decodeWithin,
        Argument.decodeWithin]
      constructor
      · refine withPayload_congr fun form payload hpayload => Expression.ofForm_congr ?_ ?_ form
        · exact fun w hw => (ih (by omega) (by omega)).1
        · exact fun w hw => (ih (by omega) (by omega)).2
      · refine withPayload_congr fun form payload hpayload => Argument.ofForm_congr ?_ form
        exact (ih (by omega) (by omega)).1

/-- An expression is read by reading what its form is made from. -/
theorem Expression.decode_eq (v : Json) :
    Expression.decode v = v.withPayload (Expression.ofForm Expression.decode Argument.decode) := by
  rw [Expression.decode, Expression.decodeWithin]
  refine withPayload_congr fun form payload hpayload => Expression.ofForm_congr ?_ ?_ form
  · exact fun w hw => (decodeWithin_expression_argument (by omega) (Nat.lt_succ_self _)).1
  · exact fun w hw => (decodeWithin_expression_argument (by omega) (Nat.lt_succ_self _)).2

theorem Argument.decode_eq (v : Json) :
    Argument.decode v = v.withPayload (Argument.ofForm Expression.decode) := by
  rw [Argument.decode, Argument.decodeWithin]
  refine withPayload_congr fun form payload hpayload => Argument.ofForm_congr ?_ form
  exact (decodeWithin_expression_argument hpayload (Nat.lt_succ_self _)).1

/-! ## What only values that were put aside admit -/

namespace Json

/-- A symbol, its kind or its content is spelled so that it can be read where it stands: no name without
payload is spelled with the empty object, and no array starts with a number. Content in front of its kind
is put aside in any case, and what stands under other keys is not read. -/
inductive InPlace : Json → Prop
  | leaf {v : Json} : v.depth = 0 → InPlace v
  | obj {fields : List (String × Json)} :
      (∀ name, fields ≠ [(name, .obj [])]) → (∀ k, (kindKey, k) ∈ fields → InPlace k) →
      (contentFirst fields = false → ∀ c, (contentKey, c) ∈ fields → InPlace c) →
      InPlace (.obj fields)
  | arr {items : List Json} :
      (∀ n, items.head? ≠ some (.int n)) → (∀ item ∈ items, InPlace item) → InPlace (.arr items)

theorem inPlace_str (text : String) : InPlace (.str text) :=
  .leaf rfl

theorem inPlace_choice_iff {name : String} {payload : Json} (h : payload.isUnit .buffered = true) :
    InPlace (.obj [(name, payload)]) ↔ payload.isUnit .direct = true := by
  constructor
  · intro hplace
    cases hplace with
    | leaf hdepth => simp [depth] at hdepth
    | obj hhollow _ _ =>
        unfold isUnit at h ⊢
        split at h
        · rfl
        · exact absurd rfl (hhollow name)
        · cases h
  · intro hunit
    obtain rfl : payload = .null := by
      unfold isUnit at hunit
      split at hunit
      · rfl
      · cases hunit
      · cases hunit
    exact .obj (by simp) (fun k hk => .leaf (by simp_all [depth])) fun _ c hc => .leaf (by simp_all [depth])

theorem isUnit_buffered {payload : Json} (h : payload.isUnit .direct = true) :
    payload.isUnit .buffered = true := by
  unfold isUnit at h ⊢
  split at h
  · rfl
  · rfl
  · cases h

theorem plainChoice_direct_iff {v : Json} {name : String} :
    v.plainChoice .direct = some name ↔ v.plainChoice .buffered = some name ∧ v.InPlace := by
  cases v with
  | str text => simp [plainChoice, choice, inPlace_str]
  | obj fields =>
      obtain _ | ⟨⟨key, payload⟩, _ | _⟩ := fields
      · simp [plainChoice, choice]
      · show (if payload.isUnit .direct then some key else none) = some name ↔
          (if payload.isUnit .buffered then some key else none) = some name ∧ _
        cases hunit : payload.isUnit .buffered with
        | true =>
            rw [inPlace_choice_iff hunit]
            cases payload.isUnit .direct <;> simp
        | false =>
            have hdirect := mt isUnit_buffered (Bool.eq_false_iff.mp hunit)
            simp [hdirect]
      · simp [plainChoice, choice]
  | _ => simp [plainChoice, choice]

theorem kindAtHead_direct_iff {kinds : List String} {v : Json} {name : String} :
    v.kindAtHead kinds .direct = some name ↔
      v.kindAtHead kinds .buffered = some name ∧ ∀ n, v ≠ .int n := by
  cases v <;> simp [kindAtHead]

end Json

theorem inPlace_of_text? {content : Option Json} {text : String}
    (h : required text? content = some text) : ∀ c ∈ content, c.InPlace := by
  rintro c rfl
  cases c with
  | str _ => exact inPlace_str _
  | _ => cases h

theorem map_eq_some_and_iff {α β : Type} {x y : Option α} {p : Prop} (f : α → β)
    (h : ∀ a, x = some a ↔ y = some a ∧ p) {b : β} : x.map f = some b ↔ y.map f = some b ∧ p := by
  simp only [Option.map_eq_some_iff, h]
  constructor
  · rintro ⟨a, ⟨ha, hp⟩, hb⟩
    exact ⟨⟨a, ha, hb⟩, hp⟩
  · rintro ⟨⟨a, ha, hb⟩, hp⟩
    exact ⟨a, ⟨ha, hp⟩, hb⟩

/-- Content that is not a list can be read in place exactly if it can be read after it was put aside and is
spelled accordingly. -/
theorem Content.read_direct_iff {α : Type} {read : Reading → Json → Option α} {c : Content α}
    (hc : ∀ make, c ≠ .many make) {content : Option Json} {a : α}
    (ih : ∀ w ∈ content, ∀ a, read .direct w = some a ↔ read .buffered w = some a ∧ w.InPlace) :
    c.read (read .direct) .direct content = some a ↔
      c.read (read .buffered) .buffered content = some a ∧ ∀ w ∈ content, w.InPlace := by
  cases c with
  | nothing value =>
      simp only [Content.read]
      cases hnone : noContent content with
      | false => simp
      | true =>
          have hplace : ∀ w ∈ content, w.InPlace := by
            rintro w rfl
            cases w with
            | null => exact .leaf rfl
            | _ => cases hnone
          exact ⟨fun h => ⟨h, hplace⟩, And.left⟩
  | primitive make =>
      refine map_eq_some_and_iff make fun p => ?_
      cases content with
      | none => simp [required]
      | some w =>
          simp only [required_some, Primitive.decode, Option.bind_eq_bind, Option.bind_eq_some_iff,
            plainChoice_direct_iff, Option.mem_def, Option.some.injEq, forall_eq']
          constructor
          · rintro ⟨word, ⟨hword, hplace⟩, hp⟩
            exact ⟨⟨word, hword, hp⟩, hplace⟩
          · rintro ⟨⟨word, hword, hp⟩, hplace⟩
            exact ⟨word, ⟨hword, hplace⟩, hp⟩
  | text make =>
      exact map_eq_some_and_iff make fun t => ⟨fun h => ⟨h, inPlace_of_text? h⟩, And.left⟩
  | one make =>
      refine map_eq_some_and_iff make fun b => ?_
      cases content with
      | none => simp [required]
      | some w => simpa using ih w rfl b
  | many make => exact absurd rfl (hc make)

namespace TypeSymbol

/-- Reads a symbol that stands in its place or was put aside. -/
def read (reading : Reading) (v : Json) : Option TypeSymbol :=
  variants.read reading v

/-- No kind of symbol holds a list. -/
theorem lookup_ne_many {kind : String} {c : Content TypeSymbol} (h : variants.lookup kind = some c)
    (make : List TypeSymbol → TypeSymbol) : c ≠ .many make := by
  obtain ⟨before, after, hsplit, -⟩ := List.lookup_eq_some_iff.mp h
  have hmem : (kind, c) ∈ variants := by simp [hsplit]
  rintro rfl
  simp [variants] at hmem

theorem ofTagged_direct_iff {kind : String} {content : Option Json} {s : TypeSymbol}
    (ih : ∀ c ∈ content, ∀ s, read .direct c = some s ↔ read .buffered c = some s ∧ c.InPlace) :
    variants.ofTagged read kind content .direct = some s ↔
      variants.ofTagged read kind content .buffered = some s ∧ ∀ c ∈ content, c.InPlace := by
  rw [Variants.ofTagged, Variants.ofTagged]
  cases hkind : variants.lookup kind with
  | none => simp
  | some c => exact c.read_direct_iff (lookup_ne_many hkind) ih

theorem inPlace_obj_iff {fields : List (String × Json)} {k : Json} {content : Option Json}
    (hk : slot fields kindKey = some (some k)) (hcontent : slot fields contentKey = some content)
    {name : String} (hname : k.plainChoice .buffered = some name) :
    InPlace (.obj fields) ↔
      k.InPlace ∧ (contentFirst fields = false → ∀ c ∈ content, c.InPlace) := by
  constructor
  · intro h
    cases h with
    | leaf hdepth => simp [depth] at hdepth
    | obj _ hkind hof =>
        refine ⟨hkind k (mem_of_slot hk), fun hfirst c hc => hof hfirst c (mem_of_slot ?_)⟩
        rw [hcontent, Option.mem_def.mp hc]
  · rintro ⟨hkind, hof⟩
    refine .obj ?_ (fun k' hk' => ?_) fun hfirst c hc => hof hfirst c (eq_of_slot hcontent hc)
    · -- The one field would be the kind, but the empty object names none.
      rintro key rfl
      obtain ⟨rfl, rfl⟩ : kindKey = key ∧ k = .obj [] := by simpa using mem_of_slot hk
      cases hname
    · cases eq_of_slot hk hk'
      exact hkind

theorem read_obj_eq_some_iff {reading : Reading} {fields : List (String × Json)} {s : TypeSymbol} :
    read reading (.obj fields) = some s ↔
      ∃ k kind content, slot fields kindKey = some (some k) ∧ k.plainChoice reading = some kind ∧
        slot fields contentKey = some content ∧
        variants.ofTagged read kind content (if contentFirst fields then .buffered else reading) =
          some s := by
  rw [read, Variants.read_eq, Option.bind_eq_some_iff]
  constructor
  · rintro ⟨⟨kind, content, r⟩, ht, hs⟩
    obtain ⟨k, hk, hname, hcontent, rfl⟩ := tagged_obj_eq_some_iff.mp ht
    exact ⟨k, kind, content, hk, hname, hcontent, hs⟩
  · rintro ⟨k, kind, content, hk, hname, hcontent, hs⟩
    exact ⟨(kind, content, _), tagged_obj_eq_some_iff.mpr ⟨k, hk, hname, hcontent, rfl⟩, hs⟩

theorem read_arr_eq_some_iff {reading : Reading} {items : List Json} {s : TypeSymbol} :
    read reading (.arr items) = some s ↔
      ∃ k kind c, items = [k, c] ∧ k.kindAtHead variants.kinds reading = some kind ∧
        variants.ofTagged read kind (some c) reading = some s := by
  rw [read, Variants.read_eq, Option.bind_eq_some_iff]
  constructor
  · rintro ⟨⟨kind, content, r⟩, ht, hs⟩
    obtain ⟨k, c, rfl, hname, rfl, rfl⟩ := tagged_arr_eq_some_iff.mp ht
    exact ⟨k, kind, c, rfl, hname, hs⟩
  · rintro ⟨k, kind, c, rfl, hname, hs⟩
    exact ⟨(kind, some c, reading), tagged_arr_eq_some_iff.mpr ⟨k, c, rfl, hname, rfl, rfl⟩, hs⟩

theorem read_obj_direct_iff {fields : List (String × Json)} {s : TypeSymbol}
    (ih : ∀ c, (contentKey, c) ∈ fields → ∀ s,
      read .direct c = some s ↔ read .buffered c = some s ∧ c.InPlace) :
    read .direct (.obj fields) = some s ↔
      read .buffered (.obj fields) = some s ∧ InPlace (.obj fields) := by
  have hcontents {content : Option Json} (hcontent : slot fields contentKey = some content) :
      ∀ c ∈ content, ∀ s, read .direct c = some s ↔ read .buffered c = some s ∧ c.InPlace := by
    rintro c rfl
    exact ih c (mem_of_slot hcontent)
  simp only [read_obj_eq_some_iff, ite_self]
  cases hfirst : contentFirst fields with
  | true =>
      constructor
      · rintro ⟨k, kind, content, hk, hname, hcontent, hs⟩
        obtain ⟨hname, hplace⟩ := plainChoice_direct_iff.mp hname
        exact ⟨⟨k, kind, content, hk, hname, hcontent, hs⟩,
          (inPlace_obj_iff hk hcontent hname).mpr ⟨hplace, by simp [hfirst]⟩⟩
      · rintro ⟨⟨k, kind, content, hk, hname, hcontent, hs⟩, hplace⟩
        have hkind := ((inPlace_obj_iff hk hcontent hname).mp hplace).1
        exact ⟨k, kind, content, hk, plainChoice_direct_iff.mpr ⟨hname, hkind⟩, hcontent, hs⟩
  | false =>
      constructor
      · rintro ⟨k, kind, content, hk, hname, hcontent, hs⟩
        obtain ⟨hname, hplace⟩ := plainChoice_direct_iff.mp hname
        obtain ⟨hs, hof⟩ := (ofTagged_direct_iff (hcontents hcontent)).mp hs
        exact ⟨⟨k, kind, content, hk, hname, hcontent, hs⟩,
          (inPlace_obj_iff hk hcontent hname).mpr ⟨hplace, fun _ => hof⟩⟩
      · rintro ⟨⟨k, kind, content, hk, hname, hcontent, hs⟩, hplace⟩
        obtain ⟨hkind, hof⟩ := (inPlace_obj_iff hk hcontent hname).mp hplace
        exact ⟨k, kind, content, hk, plainChoice_direct_iff.mpr ⟨hname, hkind⟩, hcontent,
          (ofTagged_direct_iff (hcontents hcontent)).mpr ⟨hs, hof hfirst⟩⟩

theorem inPlace_pair_iff {k c : Json} {kind : String}
    (hkind : k.kindAtHead variants.kinds .buffered = some kind) :
    InPlace (.arr [k, c]) ↔ (∀ n, k ≠ .int n) ∧ c.InPlace := by
  constructor
  · intro h
    cases h with
    | leaf hdepth => simp [depth] at hdepth
    | arr hhead hitems => exact ⟨by simpa using hhead, hitems c (by simp)⟩
  · rintro ⟨hne, hc⟩
    refine .arr (by simpa using hne) fun item hitem => ?_
    rcases List.mem_cons.mp hitem with rfl | hitem
    · cases item with
      | str text => exact inPlace_str text
      | int n => exact absurd rfl (hne n)
      | _ => cases hkind
    · rwa [List.mem_singleton.mp hitem]

theorem read_arr_direct_iff {items : List Json} {s : TypeSymbol}
    (ih : ∀ c ∈ items, ∀ s, read .direct c = some s ↔ read .buffered c = some s ∧ c.InPlace) :
    read .direct (.arr items) = some s ↔
      read .buffered (.arr items) = some s ∧ InPlace (.arr items) := by
  simp only [read_arr_eq_some_iff]
  constructor
  · rintro ⟨k, kind, c, rfl, hname, hs⟩
    obtain ⟨hname, hne⟩ := kindAtHead_direct_iff.mp hname
    obtain ⟨hs, hof⟩ := (ofTagged_direct_iff (by simpa using ih c (by simp))).mp hs
    exact ⟨⟨k, kind, c, rfl, hname, hs⟩, (inPlace_pair_iff hname).mpr ⟨hne, hof c rfl⟩⟩
  · rintro ⟨⟨k, kind, c, rfl, hname, hs⟩, hplace⟩
    obtain ⟨hne, hc⟩ := (inPlace_pair_iff hname).mp hplace
    refine ⟨k, kind, c, rfl, kindAtHead_direct_iff.mpr ⟨hname, hne⟩, ?_⟩
    exact (ofTagged_direct_iff (by simpa using ih c (by simp))).mpr ⟨hs, by simpa using hc⟩

/-- A symbol can be read where it stands exactly if it can be read after it was put aside, to the same
result, and is spelled accordingly. -/
theorem read_direct_iff {v : Json} {s : TypeSymbol} :
    read .direct v = some s ↔ read .buffered v = some s ∧ v.InPlace := by
  induction hd : v.depth using Nat.strong_induction_on generalizing v s with
  | _ d ih =>
      subst hd
      cases v with
      | obj fields =>
          exact read_obj_direct_iff fun c hc s =>
            ih c.depth (Nat.lt_succ_of_le (depth_le_depthFields hc)) rfl
      | arr items =>
          exact read_arr_direct_iff fun c hc s =>
            ih c.depth (Nat.lt_succ_of_le (depth_le_depthItems hc)) rfl
      | _ => simp [read, Variants.read_eq, tagged]

end TypeSymbol

end FunctionService
