import Kyber.Proofs.Listing

/-!
# The tags of mod images

A picture is tagged with levels, modes and mods. `CheckModImages` and
`UploadModImages` read a picture, add what is new and write whole arrays back, so what
another request has added in between is lost; of several items with one hash a check
records the first; and a check that comes before the picture is uploaded records
nothing. When none of this happens, a picture has, without duplicates, every tag that
a request has given for it that has succeeded.
-/

namespace Kyber.Api.Listing

open Kyber.Lib Prog

/-! ## Tags -/

/-- What a request gives for a picture. Checks name no mod. -/
structure Tag where
  hash : String
  level : String
  mode : String
  mod : Option ModImageModModel
  deriving DecidableEq, Repr

def CheckModImageItem.tag (item : CheckModImageItem) : Tag :=
  { hash := item.hash, level := item.level, mode := item.mode, mod := none }

def ModImage.tag (imageHash : List UInt8 → String) (img : ModImage) : Tag :=
  { hash := imageHash img.image, level := img.level, mode := img.mode, mod := some img.mod }

def Request.tags (lib : Libraries) : Request → List Tag
  | .check items => items.map CheckModImageItem.tag
  | .upload _ images _ => images.map (ModImage.tag lib.imageHash)
  | _ => []

/-- The picture has the tag. -/
structure Tagged (image : ModImageModel) (tag : Tag) : Prop where
  level : tag.level ∈ image.levels
  mode : tag.mode ∈ image.modes
  mod : ∀ mod, tag.mod = some mod → mod ∈ image.mods

/-- The arrays have no duplicates. -/
structure Distinct (image : ModImageModel) : Prop where
  levels : image.levels.Nodup
  modes : image.modes.Nodup
  mods : image.mods.Nodup

/-- The first picture has all the tags of the second. -/
def covers (image other : ModImageModel) : Bool :=
  other.levels.all image.levels.contains && other.modes.all image.modes.contains &&
    other.mods.all image.mods.contains

theorem covers_iff {image other : ModImageModel} :
    covers image other = true ↔
      other.levels ⊆ image.levels ∧ other.modes ⊆ image.modes ∧ other.mods ⊆ image.mods := by
  simp only [covers, Bool.and_eq_true, List.all_eq_true, List.contains_iff_mem, and_assoc]
  rfl

theorem covers_refl (image : ModImageModel) : covers image image = true :=
  covers_iff.mpr ⟨fun _ h => h, fun _ h => h, fun _ h => h⟩

theorem covers_trans {image other third : ModImageModel} (h : covers image other = true)
    (h' : covers other third = true) : covers image third = true := by
  rw [covers_iff] at h h' ⊢
  exact ⟨fun _ hx => h.1 (h'.1 hx), fun _ hx => h.2.1 (h'.2.1 hx), fun _ hx => h.2.2 (h'.2.2 hx)⟩

theorem mem_addNew {α : Type} [BEq α] [LawfulBEq α] {l : List α} {a b : α} :
    b ∈ addNew l a ↔ b ∈ l ∨ b = a := by
  unfold addNew
  split
  · next h =>
      rw [List.contains_iff_mem] at h
      refine ⟨.inl, ?_⟩
      rintro (hb | rfl)
      · exact hb
      · exact h
  · rw [List.mem_append, List.mem_singleton]

theorem addNew_nodup {α : Type} [BEq α] [LawfulBEq α] {l : List α} (h : l.Nodup) (a : α) :
    (addNew l a).Nodup := by
  unfold addNew
  split
  · exact h
  · next hnew =>
      rw [List.contains_iff_mem] at hnew
      rw [List.nodup_append]
      refine ⟨h, List.nodup_singleton _, ?_⟩
      intro b hb c hc heq
      rw [List.mem_singleton] at hc
      subst hc heq
      exact hnew hb

/-! ## What must not happen -/

/-- The items with one hash are for one level and one mode. -/
def uniform (items : List CheckModImageItem) : Bool :=
  items.all fun item => items.all fun other =>
    item.hash ≠ other.hash || (item.level = other.level && item.mode = other.mode)

/-- No check that has been answered has asked for the tag's picture with another level or mode. -/
def unasked (sys : ListingSystem) (tag : Tag) : Bool :=
  sys.trace.all fun e =>
    match e.call, sys.requests[e.task]? with
    | ⟨.imagesByIDs _, .ok _⟩, some (.check items) => items.all fun item =>
        item.hash ≠ tag.hash || (item.level = tag.level && item.mode = tag.mode)
    | _, _ => true

/-- The picture that a request has read last under the id. -/
def lastRead (cs : List ((q : Query) × Except DbError q.Result)) (id : String) :
    Option ModImageModel :=
  cs.reverse.findSome? fun
    | ⟨.imageByID _, .ok image⟩ => image.filter (·.id == id)
    | ⟨.imagesByIDs _, .ok images⟩ => images.find? (·.id == id)
    | _ => none

/-- The picture of an upload that it is at. Each takes two calls. -/
def currentImage (sys : ListingSystem) (i : Nat) : Option ModImage :=
  match sys.requests[i]? with
  | some (.upload _ images _) => images[(sys.calls i).length / 2]?
  | _ => none

/-- A check must not have items of one hash that differ; when arrays are replaced, all that
is stored in them must be what the request has read; and a picture must not come after a
check of it. -/
def keepsTags (lib : Libraries) (sys : ListingSystem) : ListingAction → Bool
  | .request (.check items) => uniform items
  | .run i outcome =>
      outcome = .failed ||
        match sys.tasks[i]? with
        | some (.call (.updateImage id (.checked _ _)) _) =>
            (lastRead (sys.calls i) id).all fun read =>
              (sys.store.modImages.find? (·.id == id)).all fun stored =>
                stored.levels.all read.levels.contains && stored.modes.all read.modes.contains
        | some (.call (.updateImage id (.uploaded _ _ _)) _) =>
            (lastRead (sys.calls i) id).all fun read =>
              (sys.store.modImages.find? (·.id == id)).all fun stored => covers read stored
        | some (.call (.createImage _) _) =>
            (currentImage sys i).all fun img =>
              sys.store.modImages.any (·.id == lib.imageHash img.image) ||
                unasked sys (img.tag lib.imageHash)
        | _ => true
  | _ => true

/-! ## What the requests write -/

/-- The pictures that a call has read or written, as far as it shows them. -/
def shown : (q : Query) × Except DbError q.Result → List ModImageModel
  | ⟨.imageByID _, .ok image⟩ => image.toList
  | ⟨.imagesByIDs _, .ok images⟩ => images
  | ⟨.updateImage id (.checked levels modes), .ok _⟩ =>
      [{ id, levels, modes, mods := [], status := .pending, useCount := 0 }]
  | ⟨.updateImage id (.uploaded mods levels modes), .ok _⟩ =>
      [{ id, levels, modes, mods, status := .pending, useCount := 0 }]
  | ⟨.createImage image, .ok _⟩ => [image]
  | _ => []

/-- The update adds to what was read. -/
def AddsTo (read : ModImageModel) : ImageUpdate → Prop
  | .used => False
  | .checked levels modes =>
      ∃ level mode, levels = addNew read.levels level ∧ modes = addNew read.modes mode
  | .uploaded mods levels modes => ∃ mod level mode, mods = addNew read.mods mod ∧
      levels = addNew read.levels level ∧ modes = addNew read.modes mode

/-- What an update makes of a picture has no duplicates. -/
def writesDistinct : ImageUpdate → Prop
  | .used => True
  | .checked levels modes => levels.Nodup ∧ modes.Nodup
  | .uploaded mods levels modes => mods.Nodup ∧ levels.Nodup ∧ modes.Nodup

theorem AddsTo.distinct {read : ModImageModel} {update : ImageUpdate} (h : AddsTo read update)
    (hread : Distinct read) : writesDistinct update := by
  cases update with
  | used => cases h
  | checked levels modes =>
      obtain ⟨level, mode, rfl, rfl⟩ := h
      exact ⟨addNew_nodup hread.levels level, addNew_nodup hread.modes mode⟩
  | uploaded mods levels modes =>
      obtain ⟨mod, level, mode, rfl, rfl, rfl⟩ := h
      exact ⟨addNew_nodup hread.mods mod, addNew_nodup hread.levels level,
        addNew_nodup hread.modes mode⟩

section Paths

variable {cs : List ((q : Query) × Except DbError q.Result)}

theorem lastRead_cons (c : (q : Query) × Except DbError q.Result) (id : String) :
    lastRead (c :: cs) id = (lastRead cs id).or (lastRead [c] id) := by
  rw [lastRead, List.reverse_cons, List.findSome?_append]
  rfl

/-- What comes before the last read does not count. -/
theorem lastRead_of_tail {c : (q : Query) × Except DbError q.Result} {id : String}
    {read : ModImageModel} (h : lastRead cs id = some read) : lastRead (c :: cs) id = some read := by
  rw [lastRead_cons, h, Option.some_or]

/-- What was read last was shown by a call. -/
theorem shown_of_lastRead {id : String} {read : ModImageModel} (h : lastRead cs id = some read) :
    ∃ c ∈ cs, read ∈ shown c := by
  obtain ⟨c, hc, hread⟩ := List.exists_of_findSome?_eq_some h
  refine ⟨c, List.mem_reverse.mp hc, ?_⟩
  split at hread
  · next image =>
      rw [Option.filter_eq_some_iff] at hread
      exact Option.mem_toList.mpr hread.1
  · exact List.mem_of_find?_eq_some hread
  · cases hread

/-- A check updates a picture that it was given, and has read nothing since. -/
theorem checkImages_update {items : List CheckModImageItem} {images : List ModImageModel}
    {existing : List String} {id : String} {update : ImageUpdate}
    {k : Except DbError Unit → Task}
    (h : Path (checkImages items existing images) cs (.call (.updateImage id update) k)) :
    lastRead cs id = none ∧ ∃ image ∈ images, image.id = id ∧ AddsTo image update := by
  induction images generalizing existing cs with
  | nil => cases (path_ret h).2
  | cons image images ih =>
      have hrest : ∀ {existing cs},
          Path (checkImages items existing images) cs (.call (.updateImage id update) k) →
          lastRead cs id = none ∧ ∃ other ∈ image :: images, other.id = id ∧ AddsTo other update :=
        fun h => (ih h).imp_right fun ⟨other, hother, hadds⟩ =>
          ⟨other, List.mem_cons_of_mem _ hother, hadds⟩
      rw [checkImages] at h
      split at h
      · exact hrest h
      split at h
      · exact hrest h
      rcases path_attempt h with ⟨rfl, hq⟩ | ⟨e, -, hq⟩ | ⟨a, cs', rfl, h'⟩
      · cases hq
        exact ⟨rfl, image, List.mem_cons_self, rfl, _, _, rfl, rfl⟩
      · cases hq
      · obtain ⟨hnone, hother⟩ := hrest h'
        refine ⟨?_, hother⟩
        rw [lastRead_cons, hnone]
        rfl

/-- A check that has succeeded found each picture with the level and mode of the first item
of its hash, or has written them. -/
theorem checkImages_ok {items : List CheckModImageItem} {images : List ModImageModel}
    {existing : List String} {answer : Answer}
    (h : Path (checkImages items existing images) cs (.ret (.ok answer))) :
    ∀ image ∈ images, ∀ item, items.find? (·.hash == image.id) = some item →
      (item.level ∈ image.levels ∧ item.mode ∈ image.modes) ∨
      ⟨.updateImage image.id
        (.checked (addNew image.levels item.level) (addNew image.modes item.mode)), .ok ()⟩ ∈ cs := by
  induction images generalizing existing cs with
  | nil => simp
  | cons image images ih =>
      rw [checkImages] at h
      rw [List.forall_mem_cons]
      cases hfound : items.find? (·.hash == image.id) with
      | none =>
          rw [hfound] at h
          exact ⟨fun item hitem => (by cases hitem), ih h⟩
      | some first =>
          simp only [hfound] at h
          split at h
          · next hthere =>
              rw [List.contains_iff_mem, List.contains_iff_mem] at hthere
              refine ⟨fun item hitem => ?_, ih h⟩
              cases hitem
              exact .inl hthere
          · obtain ⟨a, cs', rfl, hrest⟩ := path_attempt_ret (by simp) h
            refine ⟨fun item hitem => ?_, fun other hother item hitem => ?_⟩
            · cases hitem
              exact .inr List.mem_cons_self
            · exact (ih hrest other hother item hitem).imp_right (List.mem_cons_of_mem _)

theorem checkModImages_path {items : List CheckModImageItem} {q : Query}
    {k : Except DbError q.Result → Task}
    (h : Path (checkModImages items) cs (.call q k)) :
    (cs = [] ∧ q = .imagesByIDs (items.map (·.hash))) ∨
      ∃ images cs', cs = ⟨.imagesByIDs (items.map (·.hash)), .ok images⟩ :: cs' ∧
        Path (checkImages items [] images) cs' (.call q k) := by
  unfold checkModImages at h
  split at h
  · cases (path_ret h).2
  rcases path_attempt h with ⟨hcs, hq⟩ | ⟨e, -, hq⟩ | h
  · cases hq
    exact .inl ⟨hcs, rfl⟩
  · cases hq
  · exact .inr h

theorem checkModImages_ok {items : List CheckModImageItem} {answer : Answer}
    (h : Path (checkModImages items) cs (.ret (.ok answer))) :
    ∃ images cs', cs = ⟨.imagesByIDs (items.map (·.hash)), .ok images⟩ :: cs' ∧
      Path (checkImages items [] images) cs' (.ret (.ok answer)) := by
  unfold checkModImages at h
  split at h
  · cases (path_ret h).2
  · exact path_attempt_ret (by simp) h

variable {imageHash : List UInt8 → String} {user : UserDocument} {unpublished : List String}

/-- An upload adds to the picture that it has read last. -/
theorem uploadImages_update {images : List ModImage} {id : String} {update : ImageUpdate}
    {k : Except DbError Unit → Task}
    (h : Path (uploadImages imageHash user unpublished images) cs
      (.call (.updateImage id update) k)) :
    ∃ read, lastRead cs id = some read ∧ AddsTo read update := by
  induction images generalizing cs with
  | nil => cases (path_ret h).2
  | cons img images ih =>
      rw [uploadImages] at h
      split at h
      · cases (path_ret h).2
      split at h
      · cases (path_ret h).2
      obtain ⟨existing, cs₁, rfl, h₁⟩ := path_attempt_call (by simp) h
      have hrest : ∀ {c c' cs₂},
          Path (uploadImages imageHash user unpublished images) cs₂
            (.call (.updateImage id update) k) →
          ∃ read, lastRead (c :: c' :: cs₂) id = some read ∧ AddsTo read update :=
        fun h => (ih h).imp fun read hread =>
          ⟨lastRead_of_tail (lastRead_of_tail hread.1), hread.2⟩
      cases existing with
      | some existing =>
          rcases path_attempt h₁ with ⟨rfl, hq⟩ | ⟨e, -, hq⟩ | ⟨a, cs₂, rfl, h₂⟩
          · cases hq
            refine ⟨existing, ?_, _, _, _, rfl, rfl, rfl⟩
            simp [lastRead]
          · cases hq
          · exact hrest h₂
      | none =>
          simp only at h₁
          split at h₁
          · cases (path_ret h₁).2
          obtain ⟨_, cs₂, rfl, h₂⟩ := path_attempt_call (by simp) h₁
          exact hrest h₂

/-- An upload inserts the picture that it is at. -/
theorem uploadImages_create {images : List ModImage} {image : ModImageModel}
    {k : Except DbError Unit → Task}
    (h : Path (uploadImages imageHash user unpublished images) cs (.call (.createImage image) k)) :
    ∃ img status, images[cs.length / 2]? = some img ∧
      image = img.document (imageHash img.image) status := by
  induction images generalizing cs with
  | nil => cases (path_ret h).2
  | cons img images ih =>
      rw [uploadImages] at h
      split at h
      · cases (path_ret h).2
      split at h
      · cases (path_ret h).2
      obtain ⟨existing, cs₁, rfl, h₁⟩ := path_attempt_call (by simp) h
      -- Two calls have brought the upload to the next picture.
      have hrest : ∀ {c c' cs₂},
          Path (uploadImages imageHash user unpublished images) cs₂ (.call (.createImage image) k) →
          ∃ other status, (img :: images)[(c :: c' :: cs₂).length / 2]? = some other ∧
            image = other.document (imageHash other.image) status := by
        intro c c' cs₂ h
        have hlength : (c :: c' :: cs₂).length / 2 = cs₂.length / 2 + 1 := by
          simp only [List.length_cons]
          omega
        rw [hlength, List.getElem?_cons_succ]
        exact ih h
      cases existing with
      | some existing =>
          obtain ⟨_, cs₂, rfl, h₂⟩ := path_attempt_call (by simp) h₁
          exact hrest h₂
      | none =>
          simp only at h₁
          split at h₁
          · cases (path_ret h₁).2
          rcases path_attempt h₁ with ⟨rfl, hq⟩ | ⟨e, -, hq⟩ | ⟨a, cs₂, rfl, h₂⟩
          · cases hq
            exact ⟨img, _, by simp, rfl⟩
          · cases hq
          · exact hrest h₂

/-- An upload that has succeeded has written each picture with its tag. -/
theorem uploadImages_ok {images : List ModImage} {answer : Answer}
    (h : Path (uploadImages imageHash user unpublished images) cs (.ret (.ok answer))) :
    ∀ img ∈ images, ∃ c ∈ cs, ∃ image ∈ shown c, Tagged image (img.tag imageHash) ∧
      (image.id = imageHash img.image ∨ ∃ existing,
        ⟨.imageByID (imageHash img.image), .ok (some existing)⟩ ∈ cs ∧ image.id = existing.id) := by
  induction images generalizing cs with
  | nil => simp
  | cons img images ih =>
      rw [uploadImages] at h
      split at h
      · cases (path_ret h).2
      split at h
      · cases (path_ret h).2
      obtain ⟨existing, cs₁, rfl, h₁⟩ := path_attempt_ret (by simp) h
      have hrest : ∀ {cs₂ c}, cs₁ = c :: cs₂ →
          Path (uploadImages imageHash user unpublished images) cs₂ (.ret (.ok answer)) →
          ∀ other ∈ images, ∃ c ∈ ⟨.imageByID (imageHash img.image), .ok existing⟩ :: cs₁,
            ∃ image ∈ shown c, Tagged image (other.tag imageHash) ∧
            (image.id = imageHash other.image ∨ ∃ found,
              ⟨.imageByID (imageHash other.image), .ok (some found)⟩
                ∈ ⟨.imageByID (imageHash img.image), .ok existing⟩ :: cs₁ ∧
              image.id = found.id) := by
        rintro cs₂ c rfl h₂ other hother
        obtain ⟨c', hc', image, himage, htagged, hid⟩ := ih h₂ other hother
        refine ⟨c', List.mem_cons_of_mem _ (List.mem_cons_of_mem _ hc'), image, himage, htagged,
          hid.imp_right ?_⟩
        rintro ⟨found, hfound, heq⟩
        exact ⟨found, List.mem_cons_of_mem _ (List.mem_cons_of_mem _ hfound), heq⟩
      rw [List.forall_mem_cons]
      cases existing with
      | some existing =>
          obtain ⟨_, cs₂, rfl, h₂⟩ := path_attempt_ret (by simp) h₁
          refine ⟨⟨_, List.mem_cons_of_mem _ List.mem_cons_self, _, List.mem_singleton_self _, ?_,
            .inr ⟨existing, List.mem_cons_self, rfl⟩⟩, hrest rfl h₂⟩
          refine ⟨mem_addNew.mpr (.inr rfl), mem_addNew.mpr (.inr rfl), fun mod hmod => ?_⟩
          cases hmod
          exact mem_addNew.mpr (.inr rfl)
      | none =>
          simp only at h₁
          split at h₁
          · cases (path_ret h₁).2
          obtain ⟨_, cs₂, rfl, h₂⟩ := path_attempt_ret (by simp) h₁
          refine ⟨⟨_, List.mem_cons_of_mem _ List.mem_cons_self, _, List.mem_singleton_self _, ?_,
            .inl rfl⟩, hrest rfl h₂⟩
          refine ⟨List.mem_singleton_self _, List.mem_singleton_self _, fun mod hmod => ?_⟩
          cases hmod
          exact List.mem_singleton_self _

end Paths

/-! ## What a step does to the tags -/

variable {lib : Libraries} {sys sys' : ListingSystem} {a : ListingAction}

/-- The stored ids are unique, and so are those of what a check has read. -/
structure Keyed (sys : ListingSystem) : Prop where
  store : (sys.store.modImages.map (·.id)).Nodup
  reads : ∀ e ∈ sys.trace, ∀ ids images, e.call = ⟨.imagesByIDs ids, .ok images⟩ →
    (images.map (·.id)).Nodup

theorem Keyed.step (h : Keyed sys) (hstep : (service lib).step sys a = some sys') : Keyed sys' where
  store := modImages_keys_step h.store hstep
  reads := by
    rcases Service.step_cases hstep with ⟨r, -, rfl⟩ | ⟨i, outcome, q, k, -, -, rfl⟩ | ⟨e, -, rfl⟩
    · exact h.reads
    · intro e he ids images hcall
      rcases List.mem_append.mp he with he | he
      · exact h.reads e he ids images hcall
      · rw [List.mem_singleton] at he
        subst he
        rw [Sigma.mk.injEq] at hcall
        obtain ⟨rfl, hanswer⟩ := hcall
        have hanswered := Database.answered_of_serve_ok (eq_of_heq hanswer)
        subst hanswered
        cases hanswer
        exact h.store.sublist (List.filter_sublist.map _)
    · exact h.reads

/-- A request that replaces arrays has read the picture, and adds to what it has read. -/
theorem update_addsTo (htraced : System.Traced (service lib) sys) (hkeyed : Keyed sys) {i : Nat}
    {id : String} {update : ImageUpdate} {k : Except DbError Unit → Task}
    (hi : sys.tasks[i]? = some (.call (.updateImage id update) k)) :
    update = .used ∨ ∃ read, lastRead (sys.calls i) id = some read ∧ AddsTo read update := by
  obtain ⟨r, hr⟩ := htraced.request_of_task hi
  have hpath := htraced.path i r _ hr hi
  have hmay := r.handler_makes lib _ _ _ hpath
  cases r with
  | check items =>
      rcases checkModImages_path hpath with ⟨-, hq⟩ | ⟨images, cs', hcs, hrest⟩
      · cases hq
      · obtain ⟨hnone, image, himage, rfl, hadds⟩ := checkImages_update hrest
        obtain ⟨e, he, -, hcall⟩ := System.mem_calls.mp (hcs ▸ List.mem_cons_self)
        have hfound := find?_key (hkeyed.reads e he _ _ hcall) himage
        refine .inr ⟨image, ?_, hadds⟩
        rw [hcs, lastRead_cons, hnone, Option.none_or]
        simpa [lastRead] using hfound
  | upload user images unpublished =>
      simp only [service, Request.handler, uploadModImages] at hpath
      split at hpath
      · cases (path_ret hpath).2
      · exact .inr (uploadImages_update hpath)
  | register _ _ _ _ | update _ _ _ _ =>
      cases update with
      | used => exact .inl rfl
      | checked _ _ | uploaded _ _ _ => cases hmay
  | serverEvent _ _ _ | serverGone _ _ | cleanup _ => cases hmay

/-- What the writes of a request are made of has no duplicates. -/
theorem update_distinct (htraced : System.Traced (service lib) sys) (hkeyed : Keyed sys)
    (hshown : ∀ e ∈ sys.trace, ∀ image ∈ shown e.call, Distinct image) {i : Nat} {id : String}
    {update : ImageUpdate} {k : Except DbError Unit → Task}
    (hi : sys.tasks[i]? = some (.call (.updateImage id update) k)) : writesDistinct update := by
  rcases update_addsTo htraced hkeyed hi with rfl | ⟨read, hread, hadds⟩
  · trivial
  · obtain ⟨c, hc, hmem⟩ := shown_of_lastRead hread
    obtain ⟨e, he, -, rfl⟩ := System.mem_calls.mp hc
    exact hadds.distinct (hshown e he read hmem)

/-- An insertion is one of an upload, for the picture that it is at. -/
theorem create_current (htraced : System.Traced (service lib) sys) {i : Nat}
    {image : ModImageModel} {k : Except DbError Unit → Task}
    (hi : sys.tasks[i]? = some (.call (.createImage image) k)) :
    ∃ img status, currentImage sys i = some img ∧
      image = img.document (lib.imageHash img.image) status := by
  obtain ⟨r, hr⟩ := htraced.request_of_task hi
  have hpath := htraced.path i r _ hr hi
  have hmay := r.handler_makes lib _ _ _ hpath
  cases r with
  | upload user images unpublished =>
      simp only [service, Request.handler, uploadModImages] at hpath
      split at hpath
      · cases (path_ret hpath).2
      · simpa [currentImage, hr] using uploadImages_create hpath
  | _ => cases hmay

theorem ModImage.document_distinct (img : ModImage) (hash : String) (status : ImageHashStatus) :
    Distinct (img.document hash status) :=
  ⟨List.nodup_singleton _, List.nodup_singleton _, List.nodup_singleton _⟩

theorem ModImage.document_tagged (img : ModImage) (status : ImageHashStatus) :
    Tagged (img.document (lib.imageHash img.image) status) (img.tag lib.imageHash) := by
  refine ⟨List.mem_singleton_self _, List.mem_singleton_self _, fun mod hmod => ?_⟩
  cases hmod
  exact List.mem_singleton_self _

/-- Every picture has its tags from one that was there, or is new, with a tag of its own that
nobody has asked for with another level or mode. -/
def Grows (sys : ListingSystem) (images : List ModImageModel) : Prop :=
  (∀ old ∈ sys.store.modImages, ∃ new ∈ images, new.id = old.id ∧ covers new old = true) ∧
  ∀ new ∈ images, (∃ old ∈ sys.store.modImages, old.id = new.id ∧ covers new old = true) ∨
    (∀ old ∈ sys.store.modImages, old.id ≠ new.id) ∧
      ∃ tag, tag.hash = new.id ∧ Tagged new tag ∧ unasked sys tag = true

theorem Grows.refl (sys : ListingSystem) : Grows sys sys.store.modImages :=
  ⟨fun old hold => ⟨old, hold, rfl, covers_refl old⟩,
    fun new hnew => .inl ⟨new, hnew, rfl, covers_refl new⟩⟩

/-- Pictures that are changed one by one, without losing a tag. -/
theorem Grows.map {f : ModImageModel → ModImageModel}
    (hf : ∀ image ∈ sys.store.modImages, (f image).id = image.id ∧ covers (f image) image = true) :
    Grows sys (sys.store.modImages.map f) := by
  constructor
  · intro old hold
    exact ⟨f old, List.mem_map_of_mem hold, hf old hold⟩
  · intro new hnew
    obtain ⟨old, hold, rfl⟩ := List.mem_map.mp hnew
    exact .inl ⟨old, hold, (hf old hold).1.symm, (hf old hold).2⟩

/-- An addition to what was read keeps what is stored, if all of that was read. -/
theorem covers_update (htraced : System.Traced (service lib) sys) (hkeyed : Keyed sys) {i : Nat}
    {outcome : Outcome} {update : ImageUpdate} {stored : ModImageModel}
    {k : Except DbError Unit → Task} (hstored : stored ∈ sys.store.modImages)
    (hi : sys.tasks[i]? = some (.call (.updateImage stored.id update) k))
    (hkeeps : keepsTags lib sys (.run i outcome) = true) (hne : outcome ≠ .failed) :
    covers (update.apply stored) stored = true := by
  rcases update_addsTo htraced hkeyed hi with rfl | ⟨read, hread, hadds⟩
  · exact covers_refl stored
  have hfound := find?_key hkeyed.store hstored
  rw [covers_iff]
  cases update with
  | used => cases hadds
  | checked levels modes =>
      obtain ⟨level, mode, rfl, rfl⟩ := hadds
      simp only [keepsTags, hne, decide_false, Bool.false_or, hi, hread, hfound, Option.all_some,
        Bool.and_eq_true, List.all_eq_true, List.contains_iff_mem] at hkeeps
      exact ⟨fun x hx => mem_addNew.mpr (.inl (hkeeps.1 x hx)),
        fun x hx => mem_addNew.mpr (.inl (hkeeps.2 x hx)), fun x hx => hx⟩
  | uploaded mods levels modes =>
      obtain ⟨mod, level, mode, rfl, rfl, rfl⟩ := hadds
      simp only [keepsTags, hne, decide_false, Bool.false_or, hi, hread, hfound, Option.all_some,
        covers_iff] at hkeeps
      exact ⟨fun x hx => mem_addNew.mpr (.inl (hkeeps.1 hx)),
        fun x hx => mem_addNew.mpr (.inl (hkeeps.2.1 hx)),
        fun x hx => mem_addNew.mpr (.inl (hkeeps.2.2 hx))⟩

/-- A picture that is inserted comes after no check of it that asked for something else. -/
theorem unasked_create (htraced : System.Traced (service lib) sys) {i : Nat} {outcome : Outcome}
    {image : ModImageModel} {k : Except DbError Unit → Task}
    (hi : sys.tasks[i]? = some (.call (.createImage image) k))
    (hkeeps : keepsTags lib sys (.run i outcome) = true) (hne : outcome ≠ .failed)
    (hnew : sys.store.modImages.any (·.id == image.id) = false) :
    ∃ tag, tag.hash = image.id ∧ Tagged image tag ∧ unasked sys tag = true := by
  obtain ⟨img, status, hcurrent, rfl⟩ := create_current htraced hi
  refine ⟨img.tag lib.imageHash, rfl, img.document_tagged status, ?_⟩
  simp only [keepsTags, hne, decide_false, Bool.false_or, hi, hcurrent, Option.all_some] at hkeeps
  exact (Bool.or_eq_true _ _).mp hkeeps |>.resolve_left (Bool.eq_false_iff.mp hnew)

theorem grows_step (htraced : System.Traced (service lib) sys) (hkeyed : Keyed sys)
    (hkeeps : keepsTags lib sys a = true) (hstep : (service lib).step sys a = some sys') :
    Grows sys sys'.store.modImages := by
  rcases Service.step_cases hstep with ⟨r, -, rfl⟩ | ⟨i, outcome, q, k, rfl, hi, rfl⟩ | ⟨e, -, rfl⟩
  · exact .refl sys
  · show Grows sys (sys.store.serve outcome q).1.modImages
    rcases Database.modImages_serve hkeyed.store outcome q with
      heq | ⟨hne, ⟨id, update, rfl, heq⟩ | ⟨image, rfl, hnew, heq⟩⟩
    · rw [heq]
      exact .refl sys
    · rw [heq]
      refine .map fun image himage => ?_
      split
      · next hid =>
          obtain rfl := eq_of_beq hid
          exact ⟨update.apply_id image, covers_update htraced hkeyed himage hi hkeeps hne⟩
      · exact ⟨rfl, covers_refl image⟩
    · rw [heq]
      constructor
      · intro old hold
        exact ⟨old, List.mem_append_left _ hold, rfl, covers_refl old⟩
      · intro new hmem
        rcases List.mem_append.mp hmem with hold | hmem
        · exact .inl ⟨new, hold, rfl, covers_refl new⟩
        · rw [List.mem_singleton] at hmem
          subst hmem
          refine .inr ⟨fun old hold heq => ?_, unasked_create htraced hi hkeeps hne hnew⟩
          rw [List.any_eq_false] at hnew
          exact hnew old hold (by simpa using heq)
  · cases e with
    | review id status =>
        show Grows sys (updateFirst (·.id == id) ({ · with status }) sys.store.modImages)
        rw [updateFirst_key hkeyed.store]
        refine .map fun image _ => ?_
        split
        · exact ⟨rfl, covers_refl image⟩
        · exact ⟨rfl, covers_refl image⟩
    | others users joinTokens now => exact .refl sys

/-- A check asks for the hashes of its items. -/
theorem check_asks (htraced : System.Traced (service lib) sys) {i : Nat} {ids : List String}
    {k : Except DbError (List ModImageModel) → Task} {items : List CheckModImageItem}
    (hr : sys.requests[i]? = some (.check items))
    (hi : sys.tasks[i]? = some (.call (.imagesByIDs ids) k)) : ids = items.map (·.hash) := by
  rcases checkModImages_path (htraced.path i _ _ hr hi) with ⟨-, hq⟩ | ⟨images, cs', -, hrest⟩
  · cases hq
    rfl
  · have hwrites : Makes (fun q => ∃ id levels modes, q = .updateImage id (.checked levels modes))
        (checkImages items [] images) := checkImages_makes (fun _ _ _ => ⟨_, _, _, rfl⟩) _ _ _
    obtain ⟨_, _, _, hq⟩ := hwrites _ _ _ hrest
    cases hq

/-- What a call shows is stored after it. -/
theorem shown_ran (htraced : System.Traced (service lib) sys) (hkeyed : Keyed sys)
    (hdistinct : ∀ image ∈ sys.store.modImages, Distinct image)
    (hshown : ∀ e ∈ sys.trace, ∀ image ∈ shown e.call, Distinct image) {i : Nat}
    {outcome : Outcome} {q : Query} {k : Except DbError q.Result → Task}
    (hi : sys.tasks[i]? = some (.call q k)) {image : ModImageModel}
    (h : image ∈ shown ⟨q, (sys.store.serve outcome q).2⟩) :
    Distinct image ∧ ∃ stored ∈ (sys.store.serve outcome q).1.modImages,
      stored.id = image.id ∧ covers stored image = true := by
  cases outcome with
  | failed | unacknowledged =>
      cases q with
      | updateImage id update => cases update <;> cases h
      | _ => cases h
  | answered =>
      cases q with
      | imageByID id =>
          have hmem : image ∈ sys.store.modImages := by
            refine List.mem_of_find?_eq_some (p := (·.id == id)) ?_
            simpa [shown, Database.serve, Database.perform] using h
          exact ⟨hdistinct image hmem, image, hmem, rfl, covers_refl image⟩
      | imagesByIDs ids =>
          have hmem : image ∈ sys.store.modImages := List.mem_of_mem_filter h
          exact ⟨hdistinct image hmem, image, hmem, rfl, covers_refl image⟩
      | createImage new =>
          have hnew : Distinct new := by
            obtain ⟨img, status, -, rfl⟩ := create_current htraced hi
            exact img.document_distinct _ _
          simp only [Database.serve, Database.perform, Database.insert] at h ⊢
          split at h
          · cases h
          · next hany =>
              rw [if_neg hany]
              obtain rfl := List.mem_singleton.mp h
              exact ⟨hnew, image, List.mem_append_right _ List.mem_cons_self, rfl,
                covers_refl image⟩
      | updateImage id update =>
          have hwrites := update_distinct htraced hkeyed hshown hi
          simp only [Database.serve, Database.perform, Database.updateByID] at h ⊢
          split at h
          · next hany =>
              rw [if_pos hany]
              obtain ⟨old, hold, hid⟩ := List.any_eq_true.mp hany
              have hmem : update.apply old ∈ updateFirst (·.id == id) update.apply
                  sys.store.modImages := by
                rw [updateFirst_key hkeyed.store]
                exact List.mem_map.mpr ⟨old, hold, if_pos hid⟩
              cases update with
              | used => cases h
              | checked levels modes =>
                  obtain rfl := List.mem_singleton.mp h
                  exact ⟨⟨hwrites.1, hwrites.2, List.nodup_nil⟩, _, hmem, eq_of_beq hid,
                    covers_iff.mpr ⟨fun _ h => h, fun _ h => h, List.nil_subset _⟩⟩
              | uploaded mods levels modes =>
                  obtain rfl := List.mem_singleton.mp h
                  exact ⟨⟨hwrites.2.1, hwrites.2.2, hwrites.1⟩, _, hmem, eq_of_beq hid,
                    covers_iff.mpr ⟨fun _ h => h, fun _ h => h, fun _ h => h⟩⟩
          · cases update <;> cases h
      | _ => cases h

/-! ## Runs -/

/-- What a run keeps whose steps keep the tags. -/
structure Tagging (lib : Libraries) (sys : ListingSystem) : Prop where
  traced : System.Traced (service lib) sys
  keyed : Keyed sys
  distinct : ∀ image ∈ sys.store.modImages, Distinct image
  shown : ∀ e ∈ sys.trace, ∀ image ∈ shown e.call, Distinct image ∧
    ∃ stored ∈ sys.store.modImages, stored.id = image.id ∧ covers stored image = true
  uniform : ∀ (i : Nat) items, sys.requests[i]? = some (.check items) → uniform items = true
  asked : ∀ e ∈ sys.trace, ∀ ids images items, e.call = ⟨.imagesByIDs ids, .ok images⟩ →
    sys.requests[e.task]? = some (.check items) → ∀ item ∈ items,
      ∀ stored ∈ sys.store.modImages, stored.id = item.hash →
        (∃ image ∈ images, image.id = item.hash) ∨
          item.level ∈ stored.levels ∧ item.mode ∈ stored.modes

/-- The pictures after a step have no duplicates. -/
theorem Tagging.distinct_step (h : Tagging lib sys)
    (hstep : (service lib).step sys a = some sys') :
    ∀ image ∈ sys'.store.modImages, Distinct image := by
  intro image himage
  rcases Service.step_cases hstep with ⟨r, -, rfl⟩ | ⟨i, outcome, q, k, -, hi, rfl⟩ | ⟨e, -, rfl⟩
  · exact h.distinct image himage
  · rcases Database.modImages_serve h.keyed.store outcome q with
      heq | ⟨-, ⟨id, update, rfl, heq⟩ | ⟨new, rfl, -, heq⟩⟩
    · exact h.distinct image (heq ▸ himage)
    · have hmem : image ∈ sys.store.modImages.map _ := heq ▸ himage
      obtain ⟨old, hold, rfl⟩ := List.mem_map.mp hmem
      have hwrites := update_distinct h.traced h.keyed
        (fun e he image hi => (h.shown e he image hi).1) hi
      split
      · cases update with
        | used => exact ⟨(h.distinct old hold).levels, (h.distinct old hold).modes,
            (h.distinct old hold).mods⟩
        | checked levels modes => exact ⟨hwrites.1, hwrites.2, (h.distinct old hold).mods⟩
        | uploaded mods levels modes => exact ⟨hwrites.2.1, hwrites.2.2, hwrites.1⟩
      · exact h.distinct old hold
    · have hmem : image ∈ sys.store.modImages ++ [new] := heq ▸ himage
      rcases List.mem_append.mp hmem with hold | hnew
      · exact h.distinct image hold
      · rw [List.mem_singleton] at hnew
        subst hnew
        obtain ⟨img, status, -, rfl⟩ := create_current h.traced hi
        exact img.document_distinct _ _
  · cases e with
    | review id status =>
        rcases mem_updateFirst himage with hold | ⟨old, hold, -, rfl⟩
        · exact h.distinct image hold
        · exact ⟨(h.distinct old hold).levels, (h.distinct old hold).modes,
            (h.distinct old hold).mods⟩
    | others users joinTokens now => exact h.distinct image himage

/-- Pictures that are shown stay, with their tags. -/
theorem Tagging.shown_of_grows (h : Tagging lib sys) {images : List ModImageModel}
    (hgrows : Grows sys images) : ∀ e ∈ sys.trace, ∀ image ∈ Listing.shown e.call,
      Distinct image ∧ ∃ stored ∈ images, stored.id = image.id ∧ covers stored image = true := by
  intro e he image himage
  obtain ⟨hdistinct, stored, hstored, hid, hcovers⟩ := h.shown e he image himage
  obtain ⟨new, hnew, hnewid, hnewcovers⟩ := hgrows.1 stored hstored
  exact ⟨hdistinct, new, hnew, hnewid.trans hid, covers_trans hnewcovers hcovers⟩

/-- What has been asked for with the tag of a picture. -/
theorem tagged_of_unasked {tag : Tag} (h : unasked sys tag = true)
    {e : Event Database fun q : Query => Except DbError q.Result} (he : e ∈ sys.trace)
    {ids : List String} {images : List ModImageModel} {items : List CheckModImageItem}
    (hcall : e.call = ⟨.imagesByIDs ids, .ok images⟩)
    (hr : sys.requests[e.task]? = some (.check items)) {item : CheckModImageItem}
    (hitem : item ∈ items) (hid : tag.hash = item.hash) :
    item.level = tag.level ∧ item.mode = tag.mode := by
  have hevent := List.all_eq_true.mp h e he
  rw [hcall, hr] at hevent
  have hall := List.all_eq_true.mp hevent item hitem
  simpa [hid] using hall

theorem Tagging.asked_of_grows (h : Tagging lib sys) {images : List ModImageModel}
    (hgrows : Grows sys images) : ∀ e ∈ sys.trace, ∀ ids found items,
      e.call = ⟨.imagesByIDs ids, .ok found⟩ → sys.requests[e.task]? = some (.check items) →
      ∀ item ∈ items, ∀ stored ∈ images, stored.id = item.hash →
        (∃ image ∈ found, image.id = item.hash) ∨
          item.level ∈ stored.levels ∧ item.mode ∈ stored.modes := by
  intro e he ids found items hcall hr item hitem stored hstored hid
  rcases hgrows.2 stored hstored with ⟨old, hold, holdid, hcovers⟩ |
      ⟨-, tag, htaghash, htagged, hunasked⟩
  · refine (h.asked e he ids found items hcall hr item hitem old hold (holdid.trans hid)).imp_right ?_
    rintro ⟨hlevel, hmode⟩
    rw [covers_iff] at hcovers
    exact ⟨hcovers.1 hlevel, hcovers.2.1 hmode⟩
  · obtain ⟨hlevel, hmode⟩ := tagged_of_unasked hunasked he hcall hr hitem (htaghash.trans hid)
    exact .inr ⟨hlevel ▸ htagged.level, hmode ▸ htagged.mode⟩

theorem Tagging.step (h : Tagging lib sys) (hkeeps : keepsTags lib sys a = true)
    (hstep : (service lib).step sys a = some sys') : Tagging lib sys' := by
  have hgrows := grows_step h.traced h.keyed hkeeps hstep
  refine ⟨h.traced.step hstep, h.keyed.step hstep, h.distinct_step hstep, ?_, ?_, ?_⟩
  · rcases Service.step_cases hstep with ⟨r, -, rfl⟩ | ⟨i, outcome, q, k, -, hi, rfl⟩ | ⟨e, -, rfl⟩
    · exact h.shown
    · intro e he
      rcases List.mem_append.mp he with he | he
      · exact h.shown_of_grows hgrows e he
      · rw [List.mem_singleton] at he
        subst he
        exact fun image => shown_ran h.traced h.keyed h.distinct
          (fun e he image hi => (h.shown e he image hi).1) hi
    · exact h.shown_of_grows hgrows
  · rcases Service.step_cases hstep with ⟨r, rfl, rfl⟩ | ⟨i, outcome, q, k, -, -, rfl⟩ | ⟨e, -, rfl⟩
    · intro i items hr
      rcases List.mem_append.mp (List.mem_of_getElem? hr) with hmem | hmem
      · obtain ⟨j, hj⟩ := List.getElem?_of_mem hmem
        exact h.uniform j items hj
      · rw [List.mem_singleton] at hmem
        subst hmem
        exact hkeeps
    · exact h.uniform
    · exact h.uniform
  · rcases Service.step_cases hstep with ⟨r, -, rfl⟩ | ⟨i, outcome, q, k, -, hi, rfl⟩ | ⟨e, -, rfl⟩
    · intro e he ids images items hcall hr
      have hlt := h.traced.task_lt e he
      have hr' : (sys.requests ++ [r])[e.task]? = some (.check items) := hr
      rw [List.getElem?_append_left hlt] at hr'
      exact h.asked e he ids images items hcall hr'
    · intro e he
      rcases List.mem_append.mp he with he | he
      · exact h.asked_of_grows hgrows e he
      · rw [List.mem_singleton] at he
        subst he
        intro ids images items hcall hr item hitem stored hstored hid
        -- The check has just asked for the hash, and has found what is stored.
        rw [Sigma.mk.injEq] at hcall
        obtain ⟨rfl, hanswer⟩ := hcall
        obtain rfl := check_asks h.traced hr hi
        have hanswered := Database.answered_of_serve_ok (eq_of_heq hanswer)
        subst hanswered
        cases hanswer
        refine .inl ⟨stored, List.mem_filter.mpr ⟨hstored, ?_⟩, hid⟩
        rw [List.contains_iff_mem, hid]
        exact List.mem_map_of_mem hitem
    · exact h.asked_of_grows hgrows

/-- A request that has succeeded has left its tags. -/
theorem Tagging.tagged (h : Tagging lib sys) {i : Nat} {r : Request} {answer : Answer}
    (hr : sys.requests[i]? = some r) (hi : sys.tasks[i]? = some (.ret (.ok answer)))
    {tag : Tag} (htag : tag ∈ r.tags lib) {image : ModImageModel}
    (himage : image ∈ sys.store.modImages) (hid : image.id = tag.hash) : Tagged image tag := by
  have hpath := h.traced.path i r _ hr hi
  -- A picture that a call of the request has shown is the stored one, with fewer tags.
  have hcovers : ∀ c ∈ sys.calls i, ∀ other ∈ Listing.shown c, other.id = image.id →
      covers image other = true := by
    intro c hc other hother hsame
    obtain ⟨e, he, -, rfl⟩ := System.mem_calls.mp hc
    obtain ⟨-, stored, hstored, hstoredid, hcovers⟩ := h.shown e he other hother
    have hfound := find?_key h.keyed.store hstored
    rw [hstoredid, hsame, find?_key h.keyed.store himage] at hfound
    cases hfound
    exact hcovers
  cases r with
  | check items =>
      obtain ⟨item, hitem, rfl⟩ := List.mem_map.mp htag
      obtain ⟨images, cs', hcs, hrest⟩ := checkModImages_ok hpath
      have hread : (⟨.imagesByIDs (items.map (·.hash)), .ok images⟩ :
          (q : Query) × Except DbError q.Result) ∈ sys.calls i := hcs ▸ List.mem_cons_self
      obtain ⟨e, he, htask, hcall⟩ := System.mem_calls.mp hread
      suffices hboth : item.level ∈ image.levels ∧ item.mode ∈ image.modes from
        ⟨hboth.1, hboth.2, fun mod hmod => by cases hmod⟩
      rcases h.asked e he _ images items hcall (htask ▸ hr) item hitem image himage hid with
        ⟨found, hfound, hfoundid⟩ | hboth
      · -- The first item of the hash is for the same level and mode.
        have hsome : (items.find? (·.hash == found.id)).isSome := by
          rw [List.find?_isSome]
          exact ⟨item, hitem, by simp [hfoundid]⟩
        obtain ⟨first, hfirst⟩ := Option.isSome_iff_exists.mp hsome
        have hhash : first.hash = found.id := by simpa using List.find?_some hfirst
        have huniform := List.all_eq_true.mp (List.all_eq_true.mp (h.uniform i items hr) first
          (List.mem_of_find?_eq_some hfirst)) item hitem
        have hsame : first.level = item.level ∧ first.mode = item.mode := by
          simpa [hhash, hfoundid] using huniform
        rw [← hsame.1, ← hsame.2]
        rcases checkImages_ok hrest found hfound first hfirst with ⟨hlevel, hmode⟩ | hwritten
        · have hc := covers_iff.mp (hcovers _ hread found hfound (hfoundid.trans hid.symm))
          exact ⟨hc.1 hlevel, hc.2.1 hmode⟩
        · let written : ModImageModel :=
            { id := found.id, levels := addNew found.levels first.level,
              modes := addNew found.modes first.mode, mods := [], status := .pending, useCount := 0 }
          have hc := covers_iff.mp (hcovers _ (hcs ▸ List.mem_cons_of_mem _ hwritten) written
            (List.mem_singleton_self _) (hfoundid.trans hid.symm))
          exact ⟨hc.1 (mem_addNew.mpr (.inr rfl)), hc.2.1 (mem_addNew.mpr (.inr rfl))⟩
      · exact hboth
  | upload user images unpublished =>
      obtain ⟨img, himg, rfl⟩ := List.mem_map.mp htag
      simp only [service, Request.handler, uploadModImages] at hpath
      split at hpath
      · cases (path_ret hpath).2
      obtain ⟨c, hc, other, hother, htagged, hotherid⟩ := uploadImages_ok hpath img himg
      have hsame : other.id = image.id := by
        rcases hotherid with heq | ⟨existing, hexisting, heq⟩
        · exact heq.trans hid.symm
        · obtain ⟨e, -, -, outcome, hserved⟩ := h.traced.served_call hexisting
          exact heq.trans ((Database.id_of_imageByID hserved.symm).trans hid.symm)
      have hcov := covers_iff.mp (hcovers c hc other hother hsame)
      exact ⟨hcov.1 htagged.level, hcov.2.1 htagged.mode,
        fun mod hmod => hcov.2.2 (htagged.mod mod hmod)⟩
  | _ => cases htag

/-- In a run whose steps keep the tags, a picture has the tags of every request that has
succeeded, without duplicates. -/
theorem tags_run (lib : Libraries) (db : Database) (hkeys : (db.modImages.map (·.id)).Nodup)
    (hdistinct : ∀ image ∈ db.modImages, Distinct image) (as : List ListingAction)
    (hkeeps : ∀ m ∈ moves (service lib).step { store := db } as, keepsTags lib m.1 m.2 = true) :
    ∀ sys ∈ visits (service lib).step { store := db } as,
      ∀ image ∈ sys.store.modImages, Distinct image ∧
        ∀ (i : Nat) r answer, sys.requests[i]? = some r →
          sys.tasks[i]? = some (.ret (.ok answer)) →
          ∀ tag ∈ r.tags lib, tag.hash = image.id → Tagged image tag := by
  have hinit : Tagging lib { store := db } := by
    refine ⟨.init _ _, ⟨hkeys, fun e he => by cases he⟩, hdistinct, ?_, ?_, ?_⟩
    · intro e he
      cases he
    · intro i items hr
      simp at hr
    · intro e he
      cases he
  intro sys hsys image himage
  have h := forall_visits_of_forall_moves (Tagging lib) (fun sys a => keepsTags lib sys a = true)
    (fun h hkeeps hstep => h.step hkeeps hstep) hinit as hkeeps sys hsys
  exact ⟨h.distinct image himage, fun i r answer hr hi tag htag hid =>
    h.tagged hr hi htag himage hid.symm⟩

/-! ## Uploads one after the other and at once -/

/-- No word is profane, and all pictures have one hash. -/
def onePicture : Libraries where
  isProfane _ := false
  imageHash _ := "p"

/-- The host uploads the picture for a level. -/
def uploadFor (level : String) : Request :=
  .upload { id := "h", token := "t", name := "Host" }
    [{ image := [1], level, mode := "n", mod := { name := "mod", version := "1" } }] []

def serialUploads : List ListingAction :=
  [.request (uploadFor "m"), .run 0 .answered, .run 0 .answered,
    .request (uploadFor "m2"), .run 1 .answered, .run 1 .answered]

theorem serialUploads_tagged :
    ∃ sys ∈ visits (service onePicture).step { store := {} } serialUploads,
      ∃ image ∈ sys.store.modImages, image.levels = ["m", "m2"] ∧ Distinct image ∧
        ∀ tag ∈ (uploadFor "m").tags onePicture, Tagged image tag := by
  have hend : (exec (service onePicture).step { store := {} } serialUploads).map
      (fun sys => (sys.store.modImages.map fun image => (image.id, image.levels), sys.requests,
        sys.tasks[0]?.bind (·.result?)))
      = some ([("p", ["m", "m2"])], [uploadFor "m", uploadFor "m2"], some (.ok .empty)) := by
    decide
  obtain ⟨sys, hsys, heq⟩ := Option.map_eq_some_iff.mp hend
  simp only [Prod.mk.injEq] at heq
  obtain ⟨himages, hrequests, hresult⟩ := heq
  obtain ⟨image, himage, hpair⟩ := List.mem_map.mp (himages ▸ List.mem_singleton_self _)
  rw [Prod.mk.injEq] at hpair
  obtain ⟨q, hq, hret⟩ := Option.bind_eq_some_iff.mp hresult
  have htask := hq.trans (congrArg some (eq_ret_of_result? hret))
  have hkeeps : (moves (service onePicture).step { store := {} } serialUploads).all
      (fun m => keepsTags onePicture m.1 m.2) = true := by decide
  have hmem := mem_visits_of_exec hsys
  have hrequest : sys.requests[0]? = some (uploadFor "m") := by rw [hrequests]; rfl
  obtain ⟨hdistinct, htagged⟩ := tags_run onePicture {} List.nodup_nil (by simp)
    serialUploads (List.all_eq_true.mp hkeeps) sys hmem image himage
  refine ⟨sys, hmem, image, himage, hpair.2, hdistinct, fun tag htag => ?_⟩
  refine htagged 0 _ _ hrequest htask tag htag ?_
  rw [hpair.1]
  simpa [uploadFor, Request.tags, ModImage.tag, onePicture] using congrArg Tag.hash
    (List.mem_singleton.mp htag)

/-- The picture is there for another level, and both uploads read it first. -/
def racingUploads : List ListingAction :=
  [.request (uploadFor "m"), .run 0 .answered, .run 0 .answered,
    .request (uploadFor "m2"), .request (uploadFor "m3"), .run 1 .answered, .run 2 .answered,
    .run 1 .answered, .run 2 .answered]

/-- All uploads succeed, and the level of one is lost. -/
theorem racingUploads_untagged :
    ∃ sys ∈ visits (service onePicture).step { store := {} } racingUploads,
      sys.requests[1]? = some (uploadFor "m2") ∧ sys.tasks[1]? = some (.ret (.ok .empty)) ∧
      ∃ image ∈ sys.store.modImages, ∃ tag ∈ (uploadFor "m2").tags onePicture,
        tag.hash = image.id ∧ ¬ Tagged image tag := by
  have hend : (exec (service onePicture).step { store := {} } racingUploads).map
      (fun sys => (sys.store.modImages.map fun image => (image.id, image.levels), sys.requests[1]?,
        sys.tasks[1]?.bind (·.result?)))
      = some ([("p", ["m", "m3"])], some (uploadFor "m2"), some (.ok .empty)) := by
    decide
  obtain ⟨sys, hsys, heq⟩ := Option.map_eq_some_iff.mp hend
  simp only [Prod.mk.injEq] at heq
  obtain ⟨himages, hrequest, hresult⟩ := heq
  obtain ⟨image, himage, hpair⟩ := List.mem_map.mp (himages ▸ List.mem_singleton_self _)
  rw [Prod.mk.injEq] at hpair
  obtain ⟨q, hq, hret⟩ := Option.bind_eq_some_iff.mp hresult
  refine ⟨sys, mem_visits_of_exec hsys, hrequest,
    hq.trans (congrArg some (eq_ret_of_result? hret)), image, himage, _,
    List.mem_singleton_self _, hpair.1.symm, fun htagged => ?_⟩
  have hlevel : "m2" ∈ image.levels := htagged.level
  rw [hpair.2] at hlevel
  exact absurd hlevel (by decide)

end Kyber.Api.Listing
