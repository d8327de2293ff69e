/-
The frames the native side posts (`native/include/flatpak_post.h`).

A frame is a discriminator byte and a payload; an error carries its length in
32 bits, where every string inside a struct carries 64.
-/
import FlatpakDart.LittleEndian
import FlatpakDart.Text

namespace FlatpakNc

/-- `post_framed`: `[discriminator][payload]`. -/
def postFramed (discriminator : UInt8) (data : List UInt8) : List UInt8 := discriminator :: data

/-- `post_framed_error`: `[discriminator][uint32_t length][UTF-8 message]`, the
length being `static_cast<uint32_t>(strlen(msg))` and the copy that long. -/
def postFramedError (discriminator : UInt8) (msg : CString) : List UInt8 :=
  let len := msg.bytes.length % 2 ^ 32
  discriminator :: (LittleEndian.bytes 4 len ++ msg.bytes.take len)

@[simp] theorem postFramed_head (d : UInt8) (data : List UInt8) :
    (postFramed d data).head? = some d := rfl

@[simp] theorem postFramedError_head (d : UInt8) (msg : CString) :
    (postFramedError d msg).head? = some d := rfl

end FlatpakNc
