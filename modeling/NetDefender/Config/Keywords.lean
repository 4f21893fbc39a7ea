import NetDefender.Config.Stream

/-!
# The keywords of the configuration

`keyword_alloc` and its relatives of `parser.c`, which put keywords into a tree one after the
other, and what `cfgfile.c`, `netif.c` and `timer.c` put there.  A handler is a name; `none` is
the null pointer.
-/

namespace NetDefender.Config

open CString

/-- The callbacks of the keywords. -/
inductive Handler where
  | netifDefs
  | pktpoolSize
  | pktpoolCache
  | device
  | rxQueueNumber
  | rxDescNb
  | rss
  | txQueueNumber
  | txDescNb
  | txMbufFastFree
  | promiscMode
  | allmulticast
  | customMtu
  | kniName
  | workerDefs
  | worker
  | workerType
  | cpuId
  | workerPort
  | rxQueueIds
  | txQueueIds
  | isolRxCpuIds
  | isolRxqRingSz
  | timerSchedInterval
  deriving DecidableEq, Repr

/-- `netdefender_state_t`. -/
inductive NetdefenderState where
  | stop
  | init
  | normal
  | finish
  deriving DecidableEq, Repr

/-- `keyword_type_t`. -/
inductive KeywordType where
  | init
  | normal
  deriving DecidableEq, Repr

/-- `struct keyword`. -/
structure KeywordNode where
  str : Bytes
  handler : Option Handler := none
  sub : Option (List KeywordNode) := none

/-! ## Installation -/

/-- `keyword_alloc`. -/
def keywordAlloc (keywordsVec : List KeywordNode) (str : Bytes) (handler : Option Handler) :
    List KeywordNode :=
  keywordsVec ++ [⟨str, handler, none⟩]

/-- `keyword_alloc_sub`, `sublevel` levels below the last keyword; the last slot of a vector
without slots, or of no vector, is `none`. -/
def keywordAllocSub : Nat → List KeywordNode → Bytes → Option Handler →
    Option (List KeywordNode)
  | sublevel, keywordsVec, str, handler => do
      let keywd ← keywordsVec.getLast?
      let sub ←
        match sublevel with
        | 0 => some (keywordAlloc (keywd.sub.getD []) str handler)
        | sublevel + 1 => do keywordAllocSub sublevel (← keywd.sub) str handler
      return keywordsVec.dropLast ++ [{ keywd with sub := some sub }]

/-- What is called to install keywords. -/
inductive Install where
  | root (str : Bytes) (handler : Option Handler)
  | keyword (str : Bytes) (handler : Option Handler) (type : KeywordType)
  | sublevel
  | sublevelEnd

/-- `g_keywords` and `g_sublevel`. -/
structure Installing where
  keywords : List KeywordNode := []
  sublevel : Nat := 0

/-- `install_keyword_root`, `install_keyword`, `install_sublevel` and `install_sublevel_end`. -/
def Install.run (state : NetdefenderState) (installing : Installing) :
    Install → Option Installing
  | .root str handler =>
      some { installing with keywords := keywordAlloc installing.keywords str handler }
  | .keyword str handler type => do
      -- a keyword of the initialization stage loses its handler later
      let handler := if type = .init ∧ state ≠ .init then none else handler
      let keywords ← keywordAllocSub installing.sublevel installing.keywords str handler
      return { installing with keywords }
  | .sublevel => some { installing with sublevel := installing.sublevel + 1 }
  | .sublevelEnd =>
      match installing.sublevel with
      | 0 => none
      | level + 1 => some { installing with sublevel := level }

/-- `install_netif_keywords`. -/
def installNetifKeywords : List Install :=
  [.root (ascii "netif_defs") (some .netifDefs),
    .keyword (ascii "pktpool_size") (some .pktpoolSize) .init,
    .keyword (ascii "pktpool_cache") (some .pktpoolCache) .init,
    .keyword (ascii "device") (some .device) .init,
    .sublevel,
    .keyword (ascii "rx") none .init,
    .sublevel,
    .keyword (ascii "queue_number") (some .rxQueueNumber) .init,
    .keyword (ascii "descriptor_number") (some .rxDescNb) .init,
    .keyword (ascii "rss") (some .rss) .init,
    .sublevelEnd,
    .keyword (ascii "tx") none .init,
    .sublevel,
    .keyword (ascii "queue_number") (some .txQueueNumber) .init,
    .keyword (ascii "descriptor_number") (some .txDescNb) .init,
    .keyword (ascii "mbuf_fast_free") (some .txMbufFastFree) .init,
    .sublevelEnd,
    .keyword (ascii "promisc_mode") (some .promiscMode) .init,
    .keyword (ascii "allmulticast") (some .allmulticast) .init,
    .keyword (ascii "mtu") (some .customMtu) .init,
    .keyword (ascii "kni_name") (some .kniName) .init,
    .sublevelEnd,
    .root (ascii "worker_defs") (some .workerDefs),
    .keyword (ascii "worker") (some .worker) .init,
    .sublevel,
    .keyword (ascii "type") (some .workerType) .init,
    .keyword (ascii "cpu_id") (some .cpuId) .init,
    .keyword (ascii "port") (some .workerPort) .init,
    .sublevel,
    .keyword (ascii "rx_queue_ids") (some .rxQueueIds) .init,
    .keyword (ascii "tx_queue_ids") (some .txQueueIds) .init,
    .keyword (ascii "isol_rx_cpu_ids") (some .isolRxCpuIds) .init,
    .keyword (ascii "isol_rxq_ring_sz") (some .isolRxqRingSz) .init,
    .sublevelEnd,
    .sublevelEnd]

/-- `ndf_install_timer_keywords`. -/
def ndfInstallTimerKeywords : List Install :=
  [.root (ascii "timer_defs") none,
    .keyword (ascii "schedule_interval") (some .timerSchedInterval) .normal]

/-- `install_keywords`, from no keywords; `g_sublevel` stays from one time to the next. -/
def installKeywords (state : NetdefenderState) (sublevel : Nat) : Option Installing :=
  (installNetifKeywords ++ ndfInstallTimerKeywords).foldlM (Install.run state) { sublevel }

/-! ## Declarations -/

/-- A keyword as it is declared, with the keywords of its sub level. -/
structure Declaration where
  str : Bytes
  handler : Option Handler := none
  type : KeywordType := .init
  sub : List Declaration := []

mutual

/-- The installations of a keyword and its sub level. -/
def Declaration.installs : Declaration → List Install
  | ⟨str, handler, type, sub⟩ =>
      .keyword str handler type ::
        if sub.isEmpty then [] else .sublevel :: (subInstalls sub ++ [.sublevelEnd])

def subInstalls : List Declaration → List Install
  | [] => []
  | declaration :: more => declaration.installs ++ subInstalls more

end

/-- The installations of a root keyword. -/
def Declaration.rootInstalls (declaration : Declaration) : List Install :=
  .root declaration.str declaration.handler :: subInstalls declaration.sub

/-- The handler of a keyword of a type. -/
def KeywordType.handler (type : KeywordType) (state : NetdefenderState)
    (handler : Option Handler) : Option Handler :=
  if type = .init ∧ state ≠ .init then none else handler

/-- No vector is made for a sub level without keywords. -/
def subVector (sub : List KeywordNode) : Option (List KeywordNode) :=
  if sub.isEmpty then none else some sub

mutual

/-- The keyword that a declaration stands for. -/
def Declaration.node (state : NetdefenderState) : Declaration → KeywordNode
  | ⟨str, handler, type, sub⟩ => ⟨str, type.handler state handler, subVector (subNodes state sub)⟩

def subNodes (state : NetdefenderState) : List Declaration → List KeywordNode
  | [] => []
  | declaration :: more => declaration.node state :: subNodes state more

end

/-- The keyword of a root declaration, whose handler is never taken away. -/
def Declaration.rootNode (state : NetdefenderState) (declaration : Declaration) : KeywordNode :=
  ⟨declaration.str, declaration.handler, subVector (subNodes state declaration.sub)⟩

/-! ## Sub levels -/

/-- The keywords in front of the last one of a vector, and the last one. -/
structure Frame where
  before : List KeywordNode
  last : KeywordNode

/-- The last keyword gets a sub level. -/
def Frame.close (frame : Frame) (sub : Option (List KeywordNode)) : List KeywordNode :=
  frame.before ++ [{ frame.last with sub }]

/-- Vectors in the last keywords of each other, down to a sub level. -/
def plug : Frame → List Frame → Option (List KeywordNode) → List KeywordNode
  | outer, [], sub => outer.close sub
  | outer, frame :: inner, sub => outer.close (some (plug frame inner sub))

theorem plug_snoc (outer : Frame) (inner : List Frame) (frame : Frame)
    (sub : Option (List KeywordNode)) :
    plug outer (inner ++ [frame]) sub = plug outer inner (some (frame.close sub)) := by
  induction inner generalizing outer with
  | nil => rfl
  | cons next inner ih =>
      rw [List.cons_append, plug, plug, ih]

@[simp] theorem close_getLast? (frame : Frame) (sub : Option (List KeywordNode)) :
    (frame.close sub).getLast? = some { frame.last with sub } := by
  simp [Frame.close]

@[simp] theorem close_dropLast (frame : Frame) (sub : Option (List KeywordNode)) :
    (frame.close sub).dropLast = frame.before := by
  simp [Frame.close]

/-- A keyword is put behind those of the sub level. -/
theorem keywordAllocSub_plug (outer : Frame) (inner : List Frame)
    (sub : Option (List KeywordNode)) (str : Bytes) (handler : Option Handler) :
    keywordAllocSub inner.length (plug outer inner sub) str handler =
      some (plug outer inner (some (keywordAlloc (sub.getD []) str handler))) := by
  induction inner generalizing outer with
  | nil => simp [keywordAllocSub, plug, Frame.close]
  | cons frame inner ih =>
      rw [List.length_cons, keywordAllocSub, plug, close_getLast?]
      simp only [Option.bind_eq_bind, Option.bind_some, ih, close_dropLast]
      rfl

section Run

variable (state : NetdefenderState) (outer : Frame)

/-- The keywords behind those of a sub level. -/
def extended (sub : Option (List KeywordNode)) (nodes : List KeywordNode) :
    Option (List KeywordNode) :=
  if nodes.isEmpty then sub else some (sub.getD [] ++ nodes)

theorem extended_extended (sub : Option (List KeywordNode)) (node : KeywordNode)
    (nodes : List KeywordNode) :
    extended (some (sub.getD [] ++ [node])) nodes = extended sub (node :: nodes) := by
  cases nodes with
  | nil => rfl
  | cons next more => simp [extended]

mutual

/-- The installations of a declaration put its keyword behind those of the sub level. -/
theorem foldlM_installs (inner : List Frame) (sub : Option (List KeywordNode)) :
    (declaration : Declaration) →
    declaration.installs.foldlM (Install.run state) ⟨plug outer inner sub, inner.length⟩ =
      some ⟨plug outer inner (some (sub.getD [] ++ [declaration.node state])), inner.length⟩
  | ⟨str, handler, type, children⟩ => by
      have installed : Install.run state ⟨plug outer inner sub, inner.length⟩
          (.keyword str handler type) =
            some ⟨plug outer inner (some (sub.getD [] ++ [⟨str, type.handler state handler, none⟩])),
              inner.length⟩ := by
        simp only [Install.run, keywordAllocSub_plug]
        rfl
      rw [Declaration.installs, List.foldlM_cons, installed, Option.bind_eq_bind,
        Option.bind_some, Declaration.node]
      cases children with
      | nil => rfl
      | cons child more =>
          -- the new keyword is the last one of the sub level, and is the next frame
          let frame : Frame := ⟨sub.getD [], ⟨str, type.handler state handler, none⟩⟩
          have opened : some (sub.getD [] ++ [⟨str, type.handler state handler, none⟩]) =
              some (frame.close none) := rfl
          have filled := foldlM_subInstalls (inner ++ [frame]) none (child :: more)
          rw [plug_snoc, plug_snoc, List.length_append] at filled
          rw [List.isEmpty_cons, if_neg Bool.false_ne_true, List.foldlM_cons, opened]
          simp only [Install.run, Option.bind_eq_bind, Option.bind_some, List.foldlM_append]
          exact (congrArg (Option.bind · _) filled).trans rfl

theorem foldlM_subInstalls (inner : List Frame) (sub : Option (List KeywordNode)) :
    (declarations : List Declaration) →
    (subInstalls declarations).foldlM (Install.run state) ⟨plug outer inner sub, inner.length⟩ =
      some ⟨plug outer inner (extended sub (subNodes state declarations)), inner.length⟩
  | [] => rfl
  | declaration :: more => by
      rw [subInstalls, List.foldlM_append, foldlM_installs inner sub declaration]
      simp only [Option.bind_eq_bind, Option.bind_some]
      rw [foldlM_subInstalls inner _ more, extended_extended, subNodes]

end

/-- A root keyword is put behind the others, with its sub level. -/
theorem foldlM_rootInstalls (keywords : List KeywordNode) (declaration : Declaration) :
    declaration.rootInstalls.foldlM (Install.run state) ⟨keywords, 0⟩ =
      some ⟨keywords ++ [declaration.rootNode state], 0⟩ := by
  let frame : Frame := ⟨keywords, ⟨declaration.str, declaration.handler, none⟩⟩
  have filled := foldlM_subInstalls state frame [] none declaration.sub
  rw [Declaration.rootInstalls, List.foldlM_cons]
  refine Eq.trans filled ?_
  rw [plug, Frame.close, Declaration.rootNode, extended, subVector]
  rfl

end Run

/-! ## The tree -/

/-- `netif_defs`. -/
def netifDefs : Declaration where
  str := ascii "netif_defs"
  handler := some .netifDefs
  sub :=
    [{ str := ascii "pktpool_size", handler := some .pktpoolSize },
      { str := ascii "pktpool_cache", handler := some .pktpoolCache },
      { str := ascii "device"
        handler := some .device
        sub :=
          [{ str := ascii "rx"
             sub :=
              [{ str := ascii "queue_number", handler := some .rxQueueNumber },
                { str := ascii "descriptor_number", handler := some .rxDescNb },
                { str := ascii "rss", handler := some .rss }] },
            { str := ascii "tx"
              sub :=
                [{ str := ascii "queue_number", handler := some .txQueueNumber },
                  { str := ascii "descriptor_number", handler := some .txDescNb },
                  { str := ascii "mbuf_fast_free", handler := some .txMbufFastFree }] },
            { str := ascii "promisc_mode", handler := some .promiscMode },
            { str := ascii "allmulticast", handler := some .allmulticast },
            { str := ascii "mtu", handler := some .customMtu },
            { str := ascii "kni_name", handler := some .kniName }] }]

/-- `worker_defs`. -/
def workerDefs : Declaration where
  str := ascii "worker_defs"
  handler := some .workerDefs
  sub :=
    [{ str := ascii "worker"
       handler := some .worker
       sub :=
        [{ str := ascii "type", handler := some .workerType },
          { str := ascii "cpu_id", handler := some .cpuId },
          { str := ascii "port"
            handler := some .workerPort
            sub :=
              [{ str := ascii "rx_queue_ids", handler := some .rxQueueIds },
                { str := ascii "tx_queue_ids", handler := some .txQueueIds },
                { str := ascii "isol_rx_cpu_ids", handler := some .isolRxCpuIds },
                { str := ascii "isol_rxq_ring_sz", handler := some .isolRxqRingSz }] }] }]

/-- `timer_defs`. -/
def timerDefs : Declaration where
  str := ascii "timer_defs"
  sub :=
    [{ str := ascii "schedule_interval", handler := some .timerSchedInterval, type := .normal }]

/-- The tree of all keywords. -/
def configKeywords (state : NetdefenderState) : List KeywordNode :=
  [netifDefs.rootNode state, workerDefs.rootNode state, timerDefs.rootNode state]

/-- The installations make the tree, and leave the sub level as it was. -/
theorem installKeywords_eq (state : NetdefenderState) :
    installKeywords state 0 = some ⟨configKeywords state, 0⟩ := by
  have netif : installNetifKeywords = netifDefs.rootInstalls ++ workerDefs.rootInstalls := rfl
  have timer : ndfInstallTimerKeywords = timerDefs.rootInstalls := rfl
  rw [installKeywords, netif, timer, List.foldlM_append, List.foldlM_append]
  simp only [foldlM_rootInstalls, Option.bind_eq_bind, Option.bind_some]
  rfl

/-! ## Places -/

mutual

/-- The keyword as `process_stream` sees it. -/
def KeywordNode.keyword : KeywordNode → Keyword
  | ⟨str, handler, sub⟩ => ⟨str, handler.isSome, vectorKeywords sub⟩

def vectorKeywords : Option (List KeywordNode) → Option (List Keyword)
  | none => none
  | some nodes => some (treeKeywords nodes)

/-- The keywords of a tree. -/
def treeKeywords : List KeywordNode → List Keyword
  | [] => []
  | node :: more => node.keyword :: treeKeywords more

end

/-- The handler of the keyword at a place. -/
def handlerAt : List KeywordNode → List Nat → Option Handler
  | _, [] => none
  | nodes, [index] => nodes[index]?.bind KeywordNode.handler
  | nodes, index :: next :: path =>
      (nodes[index]?.bind KeywordNode.sub).bind fun sub => handlerAt sub (next :: path)

mutual

/-- The handlers of a keyword and its sub level, with their places. -/
def KeywordNode.places (place : List Nat) : KeywordNode → List (List Nat × Handler)
  | ⟨_, handler, sub⟩ => handler.toList.map (Prod.mk place) ++ vectorPlaces place sub

def vectorPlaces (place : List Nat) : Option (List KeywordNode) → List (List Nat × Handler)
  | none => []
  | some nodes => treePlaces place 0 nodes

/-- The handlers of the keywords of a level, of which the first one has an index. -/
def treePlaces (place : List Nat) (index : Nat) :
    List KeywordNode → List (List Nat × Handler)
  | [] => []
  | node :: more => node.places (place ++ [index]) ++ treePlaces place (index + 1) more

end

theorem treePlaces_subset (place : List Nat) {nodes : List KeywordNode} {node : KeywordNode}
    {index : Nat} (start : Nat) (here : nodes[index]? = some node) :
    node.places (place ++ [start + index]) ⊆ treePlaces place start nodes := by
  induction nodes generalizing start index with
  | nil => cases here
  | cons first more ih =>
      rw [treePlaces]
      cases index with
      | zero =>
          cases here
          exact List.subset_append_left _ _
      | succ index =>
          have later := ih (start + 1) here
          rw [Nat.add_right_comm, Nat.add_assoc] at later
          exact List.Subset.trans later (List.subset_append_right _ _)

theorem mem_treePlaces {nodes : List KeywordNode} {path : List Nat} {handler : Handler}
    (found : handlerAt nodes path = some handler) (place : List Nat) :
    (place ++ path, handler) ∈ treePlaces place 0 nodes := by
  fun_induction handlerAt nodes path generalizing place with
  | case1 => cases found
  | case2 nodes index =>
      obtain ⟨⟨str, held, sub⟩, here, rfl⟩ := Option.bind_eq_some_iff.mp found
      apply treePlaces_subset place 0 here
      rw [Nat.zero_add, KeywordNode.places]
      exact List.mem_append_left _ (List.mem_singleton_self _)
  | case3 nodes index next path ih =>
      obtain ⟨sub, nested, found⟩ := Option.bind_eq_some_iff.mp found
      obtain ⟨⟨str, held, _⟩, here, rfl⟩ := Option.bind_eq_some_iff.mp nested
      apply treePlaces_subset place 0 here
      rw [Nat.zero_add, KeywordNode.places, vectorPlaces]
      apply List.mem_append_right
      have inner := ih sub found (place ++ [index])
      rwa [List.append_assoc, List.singleton_append] at inner

/-- The place of the keyword of a handler. -/
def Handler.place : Handler → List Nat
  | .netifDefs => [0]
  | .pktpoolSize => [0, 0]
  | .pktpoolCache => [0, 1]
  | .device => [0, 2]
  | .rxQueueNumber => [0, 2, 0, 0]
  | .rxDescNb => [0, 2, 0, 1]
  | .rss => [0, 2, 0, 2]
  | .txQueueNumber => [0, 2, 1, 0]
  | .txDescNb => [0, 2, 1, 1]
  | .txMbufFastFree => [0, 2, 1, 2]
  | .promiscMode => [0, 2, 2]
  | .allmulticast => [0, 2, 3]
  | .customMtu => [0, 2, 4]
  | .kniName => [0, 2, 5]
  | .workerDefs => [1]
  | .worker => [1, 0]
  | .workerType => [1, 0, 0]
  | .cpuId => [1, 0, 1]
  | .workerPort => [1, 0, 2]
  | .rxQueueIds => [1, 0, 2, 0]
  | .txQueueIds => [1, 0, 2, 1]
  | .isolRxCpuIds => [1, 0, 2, 2]
  | .isolRxqRingSz => [1, 0, 2, 3]
  | .timerSchedInterval => [2, 0]

/-- No handler has two places. -/
theorem handlerAt_configKeywords {state : NetdefenderState} {path : List Nat} {handler : Handler}
    (found : handlerAt (configKeywords state) path = some handler) : path = handler.place := by
  have all : ∀ entry ∈ treePlaces [] 0 (configKeywords state), entry.1 = entry.2.place := by
    cases state <;> decide +kernel
  exact all _ (mem_treePlaces found [])

end NetDefender.Config
