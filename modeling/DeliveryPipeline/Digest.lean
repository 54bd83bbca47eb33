import DeliveryPipeline.Descriptor
import DeliveryPipeline.Sha256

/-!
# The digest of a descriptor list

The digest identifies the descriptors that a pipeline was built from. It is the hash of a byte
stream, in which each field ends in a unit separator and each descriptor in a record separator.
-/
namespace DeliveryPipeline

/-- The byte after each field. -/
def unitSeparator : UInt8 := 0x1f

/-- The byte after each descriptor. -/
def recordSeparator : UInt8 := 0x1e

def utf8Bytes (s : String) : List UInt8 :=
  s.toUTF8.data.toList

def parameterBytes (name value : String) : List UInt8 :=
  utf8Bytes name ++ utf8Bytes "=" ++ utf8Bytes value ++ [unitSeparator]

/-- The bytes that stand for one descriptor. An absent field is written like an empty one. -/
def Descriptor.digestBytes (d : Descriptor) : List UInt8 :=
  utf8Bytes d.selector ++ [unitSeparator] ++
    utf8Bytes (d.declaredType.getD "") ++ [unitSeparator] ++
    utf8Bytes (d.resource.getD "") ++ [unitSeparator] ++
    d.parameters.entries.flatMap (fun p => parameterBytes p.1 p.2) ++
    utf8Bytes d.profile ++ [recordSeparator]

def digestBytes (ds : List Descriptor) : List UInt8 :=
  ds.flatMap Descriptor.digestBytes

/-- The digest of a list of descriptors, in hexadecimal digits. -/
def descriptorDigest (ds : List Descriptor) : String :=
  Sha256.hexHash (digestBytes ds)

end DeliveryPipeline
