import FuseAbi.Operation.Reply
import FuseAbi.Proofs.Naming
import Mathlib.Data.List.Basic

/-!
# Replies by opcode

What a reply carries is a matter of the protocol: the kernel sends an opcode and knows from it what to expect.
This library asks the decoded operation instead. Here the protocol's table is set down by opcode, without any
operation (`replyTable`), and the two are compared for every request that is decoded.

**The law.** The reply to a decoded request is the one that the table gives for the opcode on the wire, whatever
else the request holds. Opcodes that share an operation must therefore share their kind of reply, and an opcode
that is decoded to one of several operations must not care which: a lock request is answered alike whether it
is about a range or a whole file, and a rename whether it has flags or not. The first of these needs nothing of
the request (`Operation.replyKind_eq_opcode`); the only opcode that an operation does not give back is the
one of a rename without flags.
-/

namespace FuseAbi

/-- What the reply to an opcode carries, row by row. An opcode that stands in no row is answered by whether it
went well. -/
def replyTable : List (ReplyKind × List Opcode) :=
  [(.none, [.forget, .batchForget, .interrupt, .notifyReply]),
    (.entry, [.lookup, .mknod, .mkdir, .symlink, .link]),
    (.attr, [.getattr, .setattr]),
    (.data, [.readlink, .read]),
    (.opened, [.openFile, .openDir]),
    (.created, [.create]),
    (.written, [.write, .copyFileRange]),
    (.statfs, [.statfs]),
    (.xattr, [.getxattr, .listxattr]),
    (.lock, [.getlk]),
    (.bmap, [.bmap]),
    (.poll, [.poll]),
    (.readdir, [.readdir, .readdirPlus])]

/-- The kind of reply that the table gives for an opcode. -/
def Opcode.replyKind (op : Opcode) : ReplyKind :=
  ((replyTable.find? fun row => op ∈ row.2).map Prod.fst).getD .empty

/-- The opcodes that nobody waits for. -/
def Opcode.unanswered : List Opcode :=
  [forget, interrupt, notifyReply, batchForget]

theorem Opcode.replyKind_eq_none_iff (op : Opcode) : op.replyKind = .none ↔ op ∈ unanswered := by
  cases op <;> decide

/-- Different opcodes have different numbers. -/
theorem Opcode.code_injective : Function.Injective Opcode.code := by
  intro op op' h
  have hop := Opcode.ofCode?_code op
  rw [h, Opcode.ofCode?_code] at hop
  exact (Option.some.inj hop).symm

/-- An operation is answered like the opcode that it answers to. Flags, mode and waiting choose between opcodes
that are answered alike. -/
theorem Operation.replyKind_eq_opcode (operation : Operation) :
    operation.replyKind = operation.opcode.replyKind := by
  cases operation with
  | rename source target flags =>
    rw [opcode]
    split <;> rfl
  | readdir source size mode => cases mode <;> rfl
  | setlk handle owner lock sleep => cases sleep <;> rfl
  | flock handle owner command =>
    rw [opcode]
    split <;> rfl
  | _ => rfl

theorem Operation.expectsReply_eq_false_iff (operation : Operation) :
    operation.expectsReply = false ↔ operation.replyKind = .none := by
  rw [expectsReply, bne_eq_false_iff_eq]

namespace Request

variable {minor : Minor} {buffer : Bytes} {request : Request}

/-- The opcode of a decoded request stands in its second word. -/
theorem opcode_of_decode (h : decode minor buffer = .ok request) : request.header.opcode = wordAt buffer 4 := by
  obtain ⟨-, -, hpeek, -⟩ := decode_eq_ok_iff.mp h
  rw [hpeek, Header.peek_opcode]

/-- A decoded request is answered as the table says of the opcode that it was sent under. -/
theorem replyKind_of_opcode (h : decode minor buffer = .ok request) {op : Opcode}
    (hop : op.code = request.header.opcode) : request.operation.replyKind = op.replyKind := by
  obtain ⟨op', hop', -, hwell, -⟩ := Kernel.agreeOn_encode h
  obtain rfl : op' = op := Opcode.code_injective (hop'.trans hop.symm)
  by_cases hrename : op' = .rename2
  · subst hrename
    obtain ⟨source, target, hoperation⟩ := rename2_of_decode h hop.symm
    rw [hoperation]
    rfl
  · rw [Operation.replyKind_eq_opcode, hwell.opcode_eq hrename]

/-- What the reply to a decoded request carries is what the table gives for the opcode on the wire. So two
requests with one opcode are answered alike, at whatever minors they are decoded and whatever else they hold; and
no reply is waited for just where the opcode is one of the four that drop references, cancel, or deliver. -/
theorem reply_of_decode (h : decode minor buffer = .ok request) :
    request.header.opcode = wordAt buffer 4 ∧
    (∃ op, Opcode.ofCode? request.header.opcode = some op ∧ request.operation.replyKind = op.replyKind) ∧
    (∀ minor' buffer' request', decode minor' buffer' = .ok request' → wordAt buffer' 4 = wordAt buffer 4 →
      request'.operation.replyKind = request.operation.replyKind) ∧
    (request.operation.expectsReply = false ↔ request.header.opcode ∈ Opcode.unanswered.map Opcode.code) := by
  obtain ⟨op, hop, -⟩ := Kernel.agreeOn_encode h
  have hkind := replyKind_of_opcode h hop
  refine ⟨opcode_of_decode h, ⟨op, Opcode.ofCode?_eq_some_iff.mpr hop, hkind⟩, ?_, ?_⟩
  · intro minor' buffer' request' h' hsame
    have hop' : op.code = request'.header.opcode := by
      rw [hop, opcode_of_decode h, opcode_of_decode h', hsame]
    rw [replyKind_of_opcode h' hop', hkind]
  · rw [Operation.expectsReply_eq_false_iff, hkind, Opcode.replyKind_eq_none_iff, ← hop,
      List.mem_map_of_injective Opcode.code_injective]

/-- A lock on a whole file is asked for and answered under an opcode that ranges have too. -/
theorem reply_of_decode_flockWithRange :
    ∃ request, decode .newest Kernel.flockWithRange = .ok request ∧ request.operation.replyKind = .empty ∧
      request.operation.expectsReply = true := by
  have h : decode .newest Kernel.flockWithRange =
      .ok { header := { len := 88, opcode := 32, unique := 1, nodeid := 5, uid := 0, gid := 0, pid := 0 }
            operation := .flock ⟨5, 9⟩ ⟨3⟩ (Flock.exclusive ||| Flock.nonblocking) } := by decide
  obtain ⟨-, ⟨op, hop, hkind⟩, -, hreply⟩ := reply_of_decode h
  obtain rfl : Opcode.setlk = op := Option.some.inj (hop ▸ rfl)
  refine ⟨_, h, hkind.trans (by decide), ?_⟩
  rw [← Bool.not_eq_false, hreply]
  decide

end Request

end FuseAbi
